import Neosurf.FontFaceLoading

/-!
# Allocation failures and the loaded-font list

`mark_font_loaded` (`src/unnamed/part_006`) stores an unchecked `strdup(family_name)`, so a
failed `strdup` leaves a `NULL` node that the next `strcasecmp` loop reads.
`FontFaceHeap` holds each node's name as the heap does; with every allocation succeeding it
runs as `FontFaceLoading` does (`heapRun_succeed`), and while no such `strdup` fails no node
is `NULL` (`heapRun_namesNonNull`).  A failed `strdup` of `fetch_font_url` acts as a failed
retrieve (`fetchFontUrlAlloc_eq`).
-/

namespace Neosurf
namespace Html

/-! ### The loop over the nodes and the allocations -/

/-- The loop of `mark_font_loaded` and `html_font_face_is_available`: whether
a node's name equals `familyName` up to case, or `none` when the loop reaches
a `NULL` name first. -/
def scanLoadedFonts (familyName : String) : List (Option String) → Option Bool
  | [] => some false
  | none :: _ => none
  | some name :: rest =>
      if strcaseEq name familyName then some true else scanLoadedFonts familyName rest

/-- The outcome of the two allocations of `mark_font_loaded`: the node's
`malloc` and the name's `strdup`. -/
structure MarkAlloc where
  mallocOk : Bool
  strdupOk : Bool
  deriving DecidableEq, Repr

/-- Both allocations succeed. -/
def MarkAlloc.succeed : MarkAlloc := ⟨true, true⟩

/-- `mark_font_loaded` over the nodes as the heap holds them, given the outcome
of its allocations: a node goes in front once its `malloc` succeeded, holding
the name or, when `strdup` failed, `NULL`. -/
def markFontLoadedAlloc (alloc : MarkAlloc) (loadedFonts : List (Option String))
    (familyName : String) : Option (List (Option String)) :=
  match scanLoadedFonts familyName loadedFonts with
  | none => none
  | some true => some loadedFonts
  | some false =>
      if alloc.mallocOk then
        some ((if alloc.strdupOk then some familyName else none) :: loadedFonts)
      else some loadedFonts

/-- `fetch_font_url` given the outcome of its `strdup`: on failure the slot gets
a `NULL` name and keeps its `in_use`, and the call answers `NSERROR_NOMEM`. -/
def fetchFontUrlAlloc (strdupOk : Bool) (familyName : String) (retrieveOk : Bool)
    (st : FontFaceState) : Bool × FontFaceState :=
  match findFreeSlot st.fontDownloads with
  | none => (false, st)
  | some slot =>
      if !strdupOk then
        (false, { st with fontDownloads :=
          st.fontDownloads.set slot ⟨none, (st.fontDownloads.getD slot .free).inUse⟩ })
      else if retrieveOk then
        (true, { st with fontDownloads := st.fontDownloads.set slot ⟨some familyName, true⟩,
                         pending := slot :: st.pending })
      else (false, { st with fontDownloads := st.fontDownloads.set slot .free })

/-! ### The heap -/

/-- `font_downloads`, `loaded_fonts` with each node's `family_name` (`none` for
`NULL`), and the ghost list of the slots with a pending fetch. -/
structure FontFaceHeap where
  fontDownloads : List FontDownload
  loadedFonts : List (Option String)
  pending : List ℕ
  deriving DecidableEq, Repr

/-- Every slot free, no node. -/
def FontFaceHeap.initial : FontFaceHeap :=
  ⟨List.replicate maxFontDownloads .free, [], []⟩

/-- The heap that a state of the model where allocation succeeds stands for. -/
def FontFaceHeap.ofState (st : FontFaceState) : FontFaceHeap :=
  ⟨st.fontDownloads, st.loadedFonts.map some, st.pending⟩

/-- The slots and pending fetches, as the state the fetch functions take. -/
def FontFaceHeap.downloads (h : FontFaceHeap) : FontFaceState :=
  ⟨h.fontDownloads, [], h.pending, []⟩

/-- The heap with the slots and pending fetches of `st`. -/
def FontFaceHeap.setDownloads (h : FontFaceHeap) (st : FontFaceState) : FontFaceHeap :=
  { h with fontDownloads := st.fontDownloads, pending := st.pending }

/-- `html_font_face_is_available` over the heap. -/
def htmlFontFaceIsAvailableHeap (h : FontFaceHeap) (familyName : String) : Option Bool :=
  scanLoadedFonts familyName h.loadedFonts

/-- `html_font_face_process` over the heap. -/
def htmlFontFaceProcessHeap (call : FontFaceCall) (h : FontFaceHeap) : Option FontFaceHeap :=
  match call.family with
  | none => some h
  | some familyName =>
      match htmlFontFaceIsAvailableHeap h familyName with
      | none => none
      | some true => some h
      | some false =>
          if call.srcs = [] then some h
          else if !call.baseOk then some h
          else some (h.setDownloads (tryFontSources familyName call.srcs h.downloads))

/-- The loading part of `LLCACHE_EVENT_DONE` over the heap, given the outcome of
the allocations of the `mark_font_loaded` it calls. -/
def loadDownloadedAlloc (loadData : String → List UInt8 → Bool) (alloc : MarkAlloc) (slot : ℕ)
    (data : Option (List UInt8)) (h : FontFaceHeap) : Option FontFaceHeap :=
  match data, (h.fontDownloads.getD slot .free).familyName with
  | some bytes, some familyName =>
      if bytes ≠ [] ∧ loadData familyName bytes then
        (markFontLoadedAlloc alloc h.loadedFonts familyName).map fun loadedFonts =>
          { h with loadedFonts := loadedFonts }
      else some h
  | _, _ => some h

/-- One event over the heap, with the outcome of the allocations of the
`mark_font_loaded` a `DONE` may call; `none` where `strcasecmp` gets `NULL`. -/
def FontFaceHeap.step (loadData : String → List UInt8 → Bool) (h : FontFaceHeap) :
    FontEvent × MarkAlloc → Option FontFaceHeap
  | (.process call, _) => htmlFontFaceProcessHeap call h
  | (.done slot data, alloc) =>
      (loadDownloadedAlloc loadData alloc slot data h).map fun h =>
        h.setDownloads (releaseDownload slot h.downloads)
  | (.error slot, _) => some (h.setDownloads (releaseDownload slot h.downloads))

/-- The heap after a sequence of events, or `none` once one of them hands
`NULL` to `strcasecmp`. -/
def heapRun (loadData : String → List UInt8 → Bool) :
    List (FontEvent × MarkAlloc) → FontFaceHeap → Option FontFaceHeap
  | [], h => some h
  | event :: events, h => (h.step loadData event).bind (heapRun loadData events)

/-! ### Where every allocation succeeds -/

theorem scanLoadedFonts_map_some (familyName : String) (names : List String) :
    scanLoadedFonts familyName (names.map some) =
      some (names.any fun name => strcaseEq name familyName) := by
  induction names with
  | nil => rfl
  | cons name names ih =>
      rw [List.map_cons, scanLoadedFonts, List.any_cons, ih]
      cases strcaseEq name familyName <;> rfl

theorem markFontLoadedAlloc_succeed (names : List String) (familyName : String) :
    markFontLoadedAlloc .succeed (names.map some) familyName =
      some ((markFontLoaded names familyName).map some) := by
  unfold markFontLoadedAlloc markFontLoaded
  rw [scanLoadedFonts_map_some]
  cases names.any fun name => strcaseEq name familyName <;> rfl

/-- A failed `strdup` of `fetch_font_url` leaves the state as a failed
`llcache_handle_retrieve` does. -/
theorem fetchFontUrlAlloc_eq (strdupOk : Bool) (familyName : String) (retrieveOk : Bool)
    (st : FontFaceState) :
    fetchFontUrlAlloc strdupOk familyName retrieveOk st =
      fetchFontUrl familyName (strdupOk && retrieveOk) st := by
  unfold fetchFontUrlAlloc fetchFontUrl
  rcases hfind : findFreeSlot st.fontDownloads with _ | slot
  · rfl
  obtain ⟨hlt, hfree, -⟩ := List.findIdx?_eq_some_iff_getElem.mp hfind
  cases strdupOk
  · have hslot : (⟨none, (st.fontDownloads.getD slot .free).inUse⟩ : FontDownload) = .free := by
      rw [List.getD_eq_getElem?_getD, List.getElem?_eq_getElem hlt, Option.getD_some]
      simpa [FontDownload.free] using hfree
    simp only [Bool.not_false, if_true, Bool.false_and, Bool.false_eq_true, if_false, hslot]
  · cases retrieveOk <;> rfl

/-- The fetches of `html_font_face_process` run on the heap's slots as on the
state's. -/
theorem setDownloads_tryFontSources (familyName : String) (srcs : List FontFaceSrc) (st : FontFaceState) :
    (FontFaceHeap.ofState st).setDownloads (tryFontSources familyName srcs (FontFaceHeap.ofState st).downloads) =
      FontFaceHeap.ofState (tryFontSources familyName srcs st) := by
  have hdown : tryFontSources familyName srcs (FontFaceHeap.ofState st).downloads =
      { tryFontSources familyName srcs st with loadedFonts := [], accepted := [] } :=
    tryFontSources_setLoaded familyName srcs st [] []
  rw [FontFaceHeap.setDownloads, hdown]
  unfold FontFaceHeap.ofState
  rw [tryFontSources_loadedFonts]

theorem htmlFontFaceProcessHeap_ofState (call : FontFaceCall) (st : FontFaceState) :
    htmlFontFaceProcessHeap call (.ofState st) = some (.ofState (htmlFontFaceProcess call st)) := by
  unfold htmlFontFaceProcessHeap htmlFontFaceProcess
  rcases call.family with _ | familyName
  · rfl
  · dsimp only
    rw [htmlFontFaceIsAvailableHeap, FontFaceHeap.ofState, scanLoadedFonts_map_some, ← FontFaceHeap.ofState]
    cases hany : st.loadedFonts.any fun name => strcaseEq name familyName
    · simp only [htmlFontFaceIsAvailable, hany, Bool.false_eq_true, if_false]
      split_ifs
      · rfl
      · rfl
      · exact congrArg some (setDownloads_tryFontSources familyName call.srcs st)
    · simp only [htmlFontFaceIsAvailable, hany, if_true]

theorem loadDownloadedAlloc_ofState (loadData : String → List UInt8 → Bool) (slot : ℕ)
    (data : Option (List UInt8)) (st : FontFaceState) :
    loadDownloadedAlloc loadData .succeed slot data (.ofState st) =
      some (.ofState (loadDownloaded loadData slot data st)) := by
  unfold loadDownloadedAlloc loadDownloaded
  dsimp only [FontFaceHeap.ofState]
  rcases data with _ | bytes
  · rfl
  rcases (st.fontDownloads.getD slot .free).familyName with _ | familyName
  · rfl
  dsimp only
  split_ifs
  · rw [markFontLoadedAlloc_succeed]
    rfl
  · rfl

/-- With both allocations of `mark_font_loaded` succeeding, an event moves the
heap as it moves the state of the model where allocation succeeds. -/
theorem FontFaceHeap.step_ofState (loadData : String → List UInt8 → Bool) (st : FontFaceState)
    (event : FontEvent) :
    (FontFaceHeap.ofState st).step loadData (event, .succeed) =
      some (.ofState (st.step loadData event)) := by
  cases event with
  | process call => exact htmlFontFaceProcessHeap_ofState call st
  | done slot data =>
      show (loadDownloadedAlloc loadData .succeed slot data (.ofState st)).map _ = _
      rw [loadDownloadedAlloc_ofState]
      rfl
  | error slot => rfl

theorem heapRun_ofState (loadData : String → List UInt8 → Bool) (events : List FontEvent)
    (st : FontFaceState) :
    heapRun loadData (events.map (·, .succeed)) (.ofState st) =
      some (.ofState (events.foldl (FontFaceState.step loadData) st)) := by
  induction events generalizing st with
  | nil => rfl
  | cons event events ih =>
      rw [List.map_cons, heapRun, FontFaceHeap.step_ofState, Option.some_bind, ih, List.foldl_cons]

/-- When every allocation succeeds, a run over the heap is the run of the model
of `FontFaceLoading` on the same events: no node is `NULL`, nothing reads
through one, and `html_font_face_is_available` answers as that model does. -/
theorem heapRun_succeed (loadData : String → List UInt8 → Bool) (events : List FontEvent) :
    heapRun loadData (events.map (·, .succeed)) .initial =
      some (.ofState (events.foldl (FontFaceState.step loadData) .initial)) :=
  heapRun_ofState loadData events .initial

/-! ### Where `mark_font_loaded` gets a name for every node -/

/-- No node's name is `NULL`. -/
def FontFaceHeap.NamesNonNull (h : FontFaceHeap) : Prop :=
  ∀ name ∈ h.loadedFonts, name.isSome

/-- The `strdup` of `mark_font_loaded` succeeds whenever its `malloc` does. -/
def MarkAlloc.Checked (alloc : MarkAlloc) : Prop :=
  alloc.mallocOk = true → alloc.strdupOk = true

theorem scanLoadedFonts_isSome (familyName : String) {loadedFonts : List (Option String)}
    (h : ∀ name ∈ loadedFonts, name.isSome) : (scanLoadedFonts familyName loadedFonts).isSome := by
  induction loadedFonts with
  | nil => rfl
  | cons name rest ih =>
      obtain ⟨n, rfl⟩ := Option.isSome_iff_exists.mp (h name (List.mem_cons_self _ _))
      rw [scanLoadedFonts]
      split_ifs
      · rfl
      · exact ih fun x hx => h x (List.mem_cons_of_mem _ hx)

theorem markFontLoadedAlloc_nonNull {alloc : MarkAlloc} (halloc : alloc.Checked) (familyName : String)
    {loadedFonts : List (Option String)} (h : ∀ name ∈ loadedFonts, name.isSome) :
    ∃ loadedFonts', markFontLoadedAlloc alloc loadedFonts familyName = some loadedFonts' ∧
      ∀ name ∈ loadedFonts', name.isSome := by
  obtain ⟨found, hfound⟩ := Option.isSome_iff_exists.mp (scanLoadedFonts_isSome familyName h)
  unfold markFontLoadedAlloc
  rw [hfound]
  cases found
  · dsimp only
    by_cases hmalloc : alloc.mallocOk = true
    · rw [if_pos hmalloc, halloc hmalloc, if_pos rfl]
      exact ⟨_, rfl, List.forall_mem_cons.mpr ⟨rfl, h⟩⟩
    · rw [if_neg hmalloc]
      exact ⟨_, rfl, h⟩
  · exact ⟨_, rfl, h⟩

section NonNull

variable (loadData : String → List UInt8 → Bool) {h : FontFaceHeap}

theorem FontFaceHeap.NamesNonNull.process (hnn : h.NamesNonNull) (call : FontFaceCall) :
    ∃ h', htmlFontFaceProcessHeap call h = some h' ∧ h'.NamesNonNull := by
  unfold htmlFontFaceProcessHeap
  rcases call.family with _ | familyName
  · exact ⟨h, rfl, hnn⟩
  obtain ⟨found, hfound⟩ := Option.isSome_iff_exists.mp (scanLoadedFonts_isSome familyName hnn)
  dsimp only
  rw [htmlFontFaceIsAvailableHeap, hfound]
  cases found
  · dsimp only
    split_ifs
    · exact ⟨h, rfl, hnn⟩
    · exact ⟨h, rfl, hnn⟩
    · exact ⟨_, rfl, hnn⟩
  · exact ⟨h, rfl, hnn⟩

theorem FontFaceHeap.NamesNonNull.load (hnn : h.NamesNonNull) {alloc : MarkAlloc} (halloc : alloc.Checked)
    (slot : ℕ) (data : Option (List UInt8)) :
    ∃ h', loadDownloadedAlloc loadData alloc slot data h = some h' ∧ h'.NamesNonNull := by
  unfold loadDownloadedAlloc
  rcases data with _ | bytes
  · exact ⟨h, rfl, hnn⟩
  rcases (h.fontDownloads.getD slot .free).familyName with _ | familyName
  · exact ⟨h, rfl, hnn⟩
  dsimp only
  split_ifs
  · obtain ⟨loadedFonts, hmark, hnn'⟩ := markFontLoadedAlloc_nonNull halloc familyName hnn
    rw [hmark]
    exact ⟨_, rfl, hnn'⟩
  · exact ⟨h, rfl, hnn⟩

theorem FontFaceHeap.NamesNonNull.step (hnn : h.NamesNonNull) (event : FontEvent)
    {alloc : MarkAlloc} (halloc : alloc.Checked) :
    ∃ h', h.step loadData (event, alloc) = some h' ∧ h'.NamesNonNull := by
  cases event with
  | process call => exact hnn.process call
  | done slot data =>
      obtain ⟨h1, hload, hnn1⟩ := hnn.load loadData halloc slot data
      show ∃ h', (loadDownloadedAlloc loadData alloc slot data h).map _ = some h' ∧ _
      rw [hload]
      exact ⟨_, rfl, hnn1⟩
  | error slot => exact ⟨_, rfl, hnn⟩

theorem FontFaceHeap.NamesNonNull.heapRun (hnn : h.NamesNonNull) {events : List (FontEvent × MarkAlloc)}
    (halloc : ∀ event ∈ events, event.2.Checked) :
    ∃ h', heapRun loadData events h = some h' ∧ h'.NamesNonNull := by
  induction events generalizing h with
  | nil => exact ⟨h, rfl, hnn⟩
  | cons event events ih =>
      obtain ⟨h1, hstep, hnn1⟩ := hnn.step loadData event.1 (halloc event (List.mem_cons_self _ _))
      rw [Html.heapRun, hstep, Option.some_bind]
      exact ih hnn1 fun e he => halloc e (List.mem_cons_of_mem _ he)

end NonNull

/-- Over every run in which the `strdup` of `mark_font_loaded` succeeds
whenever its `malloc` does, whatever else fails, no node of `loaded_fonts` is
`NULL` and no loop hands one to `strcasecmp`: every event goes through, and
`html_font_face_is_available` answers for every name. -/
theorem heapRun_namesNonNull (loadData : String → List UInt8 → Bool)
    (events : List (FontEvent × MarkAlloc)) (halloc : ∀ event ∈ events, event.2.Checked) :
    ∃ h, heapRun loadData events .initial = some h ∧ h.NamesNonNull ∧
      ∀ familyName, (htmlFontFaceIsAvailableHeap h familyName).isSome := by
  obtain ⟨h, hrun, hnn⟩ :=
    (show FontFaceHeap.initial.NamesNonNull from fun _ hname => nomatch hname).heapRun loadData halloc
  exact ⟨h, hrun, hnn, fun familyName => scanLoadedFonts_isSome familyName hnn⟩

/-- `Inter` fetched and its data loaded, with every allocation succeeding. -/
theorem heapRun_namesNonNull_interLoaded :
    (∀ event ∈ [(FontEvent.process interWoff, MarkAlloc.succeed), (.done 0 (some [1]), .succeed)],
        event.2.Checked) ∧
      ∃ h, heapRun (fun _ _ => true)
          [(FontEvent.process interWoff, MarkAlloc.succeed), (.done 0 (some [1]), .succeed)] .initial =
          some h ∧ h.NamesNonNull ∧ ∀ familyName, (htmlFontFaceIsAvailableHeap h familyName).isSome :=
  have halloc : ∀ event ∈ [(FontEvent.process interWoff, MarkAlloc.succeed),
      (.done 0 (some [1]), .succeed)], event.2.Checked := by
    simp only [List.mem_cons, List.mem_singleton, List.not_mem_nil, or_false]
    rintro _ (rfl | rfl) <;> exact fun _ => rfl
  ⟨halloc, heapRun_namesNonNull (fun _ _ => true) _ halloc⟩

/-- `Inter` fetched, and its data loaded with the `strdup` of `mark_font_loaded`
failing after its `malloc` succeeded: the fetch runs on slot 0, the list gets
one node whose name is `NULL`, and the next availability check, alone or from
`html_font_face_process`, hands that `NULL` to `strcasecmp`. -/
theorem heapRun_interStrdupFail :
    (heapRun (fun _ _ => true) [(.process interWoff, .succeed)] .initial).map (·.pending) = some [0] ∧
    (heapRun (fun _ _ => true) [(.process interWoff, .succeed), (.done 0 (some [1]), ⟨true, false⟩)]
      .initial).map (·.loadedFonts) = some [none] ∧
    (heapRun (fun _ _ => true) [(.process interWoff, .succeed), (.done 0 (some [1]), ⟨true, false⟩)]
      .initial).bind (htmlFontFaceIsAvailableHeap · "Inter") = none ∧
    heapRun (fun _ _ => true) [(.process interWoff, .succeed), (.done 0 (some [1]), ⟨true, false⟩),
      (.process interWoff, .succeed)] .initial = none :=
  ⟨rfl, rfl, rfl, rfl⟩

end Html
end Neosurf
