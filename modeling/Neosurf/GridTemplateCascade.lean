import Neosurf.GridTemplateParse

/-!
# Cascading grid track lists

`css__cascade_grid_template_columns` and `css__cascade_grid_template_rows`
(`select/properties/grid_template_columns.c`) read the operands of a
`GRID_TEMPLATE_SET` OPV from the style's bytecode cursor, build a track array
with a `(0, 0)` terminator and hand it to `set_grid_template_*` when the
declaration outranks what is already selected.  The two differ in one
expression: columns convert each unit word with `css__to_css_unit`, rows
store the raw word.  A second `css__cascade_grid_template_rows`, the `TODO`
variant in the same file, reads no operands at all.

The bytecode cursor is modelled as the list of words from `style->bytecode`
on; `advance_bytecode` drops one word.  A read past the end of the bytecode,
which no parser output leads to, yields `0` here.
-/

namespace Neosurf
namespace Css

/-- `css_computed_grid_track`. -/
structure CssComputedGridTrack where
  value : Int
  unit : ℕ
  deriving DecidableEq, Repr

/-- The `(0, 0)` entry that ends a track array. -/
def gridTrackTerminator : CssComputedGridTrack := ⟨0, 0⟩

def cssGridTemplateInherit : ℕ := 0x0
def cssGridTemplateNone : ℕ := 0x1
def cssGridTemplateSet : ℕ := 0x2

/-- What a cascade function did: its `css_error`, the bytecode left after
its cursor, and what it installed in `state->computed` (`none` when the
declaration did not outrank). -/
structure CascadeResult (α : Type) where
  error : CssError
  rest : List Int
  installed : Option α
  deriving DecidableEq, Repr

/-- The `for (i = 0; i < n_tracks; i++)` loop: a value word, then a unit word
converted by `readUnit`. -/
def readTracks (readUnit : Int → ℕ) : ℕ → List Int → List CssComputedGridTrack × List Int
  | 0, rest => ([], rest)
  | n + 1, rest =>
      let value := rest.headD 0
      let unit := readUnit (rest.tail.headD 0)
      let r := readTracks readUnit n rest.tail.tail
      (⟨value, unit⟩ :: r.1, r.2)

/-- The body shared by the two track-reading cascades, `readUnit` being the
one expression in which they differ.  `outranks` is the answer of
`css__outranks_existing`; `mallocOk` the answer of the track array's
`malloc`. -/
def cascadeGridTemplate (readUnit : Int → ℕ) (opv : Int) (bytecode : List Int)
    (outranks mallocOk : Bool) : CascadeResult (ℕ × Option (List CssComputedGridTrack)) :=
  let decoded : Option (ℕ × Option (List CssComputedGridTrack) × List Int) :=
    if hasFlagValue opv = false ∧ getValue opv = gridTemplateNone then
      some (cssGridTemplateNone, none, bytecode)
    else if hasFlagValue opv = false ∧ getValue opv = gridTemplateSet then
      let n := bytecode.headD 0
      if 0 < n then
        if mallocOk then
          let r := readTracks readUnit n.toNat bytecode.tail
          some (cssGridTemplateSet, some (r.1 ++ [gridTrackTerminator]), r.2)
        else none
      else some (cssGridTemplateSet, none, bytecode.tail)
    else some (cssGridTemplateInherit, none, bytecode)
  match decoded with
  | none => ⟨.nomem, bytecode.tail, none⟩
  | some (value, tracks, rest) => ⟨.ok, rest, if outranks then some (value, tracks) else none⟩

/-- `css__cascade_grid_template_columns`. -/
def cssCascadeGridTemplateColumns (opv : Int) (bytecode : List Int) (outranks mallocOk : Bool) :
    CascadeResult (ℕ × Option (List CssComputedGridTrack)) :=
  cascadeGridTemplate (fun word => cssToCssUnit word.toNat) opv bytecode outranks mallocOk

/-- `css__cascade_grid_template_rows`: `tracks[i].unit = *style->bytecode`. -/
def cssCascadeGridTemplateRows (opv : Int) (bytecode : List Int) (outranks mallocOk : Bool) :
    CascadeResult (ℕ × Option (List CssComputedGridTrack)) :=
  cascadeGridTemplate (fun word => word.toNat) opv bytecode outranks mallocOk

/-- The `TODO` variant of `css__cascade_grid_template_rows`: `GRID_TEMPLATE_SET`
is taken as `none` and the cursor is not moved. -/
def cssCascadeGridTemplateRowsTodo (opv : Int) (bytecode : List Int) (outranks : Bool) :
    CascadeResult ℕ :=
  let value :=
    if hasFlagValue opv = false ∧ getValue opv = gridTemplateNone then cssGridTemplateNone
    else if hasFlagValue opv = false ∧ getValue opv = gridTemplateSet then cssGridTemplateNone
    else cssGridTemplateInherit
  ⟨.ok, bytecode, if outranks then some value else none⟩

/-- The entries of a track array before its first `(0, 0)`. -/
def beforeTerminator (tracks : List CssComputedGridTrack) : List CssComputedGridTrack :=
  tracks.takeWhile (· ≠ gridTrackTerminator)

/-! ### Reading back what the parser wrote -/

/-- The track words of `emit_tracks`, read back with any unit reader. -/
theorem readTracks_words (readUnit : Int → ℕ) (tracks : List (Int × ℕ)) (tail : List Int) :
    readTracks readUnit tracks.length
        ((tracks.flatMap fun t => [t.1, (t.2 : Int)]) ++ tail) =
      (tracks.map fun t => ⟨t.1, readUnit t.2⟩, tail) := by
  induction tracks with
  | nil => rfl
  | cons track rest ih => simp [readTracks, ih]

/-- A `GRID_TEMPLATE_SET` declaration of `n ≥ 1` tracks is consumed exactly and
decoded track by track with `readUnit`, whether or not it outranks. -/
theorem cascadeGridTemplate_set (readUnit : Int → ℕ) {opv : Int} {opcode : ℕ}
    (hflag : hasFlagValue opv = false) (hset : getValue opv = gridTemplateSet)
    (tracks : List (Int × ℕ)) (hne : tracks ≠ []) (tail : List Int) (outranks : Bool) :
    cascadeGridTemplate readUnit opv ((gridTemplateWords opcode tracks).tail ++ tail) outranks true =
      ⟨.ok, tail, if outranks then
        some (cssGridTemplateSet,
          some (tracks.map (fun t => ⟨t.1, readUnit t.2⟩) ++ [gridTrackTerminator]))
        else none⟩ := by
  have hpos : (0 : Int) < tracks.length := by
    have := List.length_pos.mpr hne
    omega
  have hdiff : gridTemplateSet ≠ gridTemplateNone := by decide
  rw [cascadeGridTemplate]
  simp [hset, hflag, hdiff, gridTemplateWords, hpos, readTracks_words]

/-! ### The round trip through the parser

What `css__parse_grid_template_rows` appends is read back whole by
`css__cascade_grid_template_rows`: the cursor ends just past the declaration,
and the tracks arrive with the parser's `UNIT_*` words as their units. -/

/-- What the rows cascade installs for a parsed value. -/
def GridTemplateValue.computedRows : GridTemplateValue → ℕ × Option (List CssComputedGridTrack)
  | .flag _ _ => (cssGridTemplateInherit, Option.none)
  | .none => (cssGridTemplateNone, Option.none)
  | .tracks ts _ _ => (cssGridTemplateSet, some (ts.map (fun t => ⟨t.1, t.2⟩) ++ [gridTrackTerminator]))

theorem cssCascadeGridTemplateRows_operands (v : GridTemplateValue) (tail : List Int)
    (outranks : Bool) :
    cssCascadeGridTemplateRows v.opv (v.operands ++ tail) outranks true =
      ⟨.ok, tail, if outranks then some v.computedRows else none⟩ := by
  cases v with
  | flag value hflag =>
      have hbits : hasFlagValue (buildOPV cssPropGridTemplateRows (value.code <<< 1) 0) := by
        cases value <;> simp_all [hasFlagValue, FlagValue.code]
      simp [cssCascadeGridTemplateRows, cascadeGridTemplate, GridTemplateValue.opv,
        GridTemplateValue.operands, GridTemplateValue.computedRows, hbits]
  | none =>
      simp [cssCascadeGridTemplateRows, cascadeGridTemplate, GridTemplateValue.opv,
        GridTemplateValue.operands, GridTemplateValue.computedRows, hasFlagValue, gridTemplateNone]
  | tracks ts hne _ =>
      have hwords : GridTemplateValue.operands (.tracks ts hne ‹_›) =
          (gridTemplateWords cssPropGridTemplateRows ts).tail := rfl
      have hflag : hasFlagValue (buildOPV cssPropGridTemplateRows 0 gridTemplateSet) = false := by
        simp [hasFlagValue]
      rw [cssCascadeGridTemplateRows, hwords, GridTemplateValue.opv,
        cascadeGridTemplate_set _ hflag (by simp [gridTemplateSet]) ts hne]
      simp [GridTemplateValue.computedRows]

/-- Every successful parse of `grid-template-rows` emits a value that the
rows cascade consumes exactly, installing the parsed tracks. -/
theorem cssParseGridTemplateRows_cascade_roundTrip {c : CssLanguage} {vector : List CssToken}
    {s : ParseState} (hok : (cssParseGridTemplateRows c vector s).1 = .ok) :
    ∃ v : GridTemplateValue,
      (cssParseGridTemplateRows c vector s).2.result = s.result ++ v.opv :: v.operands ∧
      ∀ tail outranks, cssCascadeGridTemplateRows v.opv (v.operands ++ tail) outranks true =
        ⟨.ok, tail, if outranks then some v.computedRows else none⟩ :=
  let ⟨v, hv⟩ := cssParseGridTemplateRows_ok hok
  ⟨v, hv, cssCascadeGridTemplateRows_operands v⟩

theorem cssParseGridTemplateRows_cascade_tenPxAuto :
    (cssParseGridTemplateRows standardLanguage tenPxAuto ⟨0, [], []⟩).1 = .ok ∧
      ∃ v : GridTemplateValue,
        (cssParseGridTemplateRows standardLanguage tenPxAuto ⟨0, [], []⟩).2.result =
          v.opv :: v.operands ∧
        ∀ tail outranks, cssCascadeGridTemplateRows v.opv (v.operands ++ tail) outranks true =
          ⟨.ok, tail, if outranks then some v.computedRows else none⟩ :=
  ⟨by decide, cssParseGridTemplateRows_cascade_roundTrip (by decide)⟩

/-! ### The failing input: one `1px` track

Columns install `(1024, CSS_UNIT_PX)`; rows install the raw `UNIT_PX` word;
the `TODO` rows cascade installs `none` and leaves the count and both operand
words under the cursor, where the next OPV is expected. -/

theorem cssCascadeGridTemplate_onePx :
    beforeTerminator ((cssCascadeGridTemplateColumns (buildOPV cssPropGridTemplateRows 0
        gridTemplateSet) [1, 1024, unitPx] true true).installed.bind (·.2)).get! =
        [⟨1024, cssToCssUnit unitPx⟩] ∧
      beforeTerminator ((cssCascadeGridTemplateRows (buildOPV cssPropGridTemplateRows 0
        gridTemplateSet) [1, 1024, unitPx] true true).installed.bind (·.2)).get! =
        [⟨1024, unitPx⟩] ∧
      cssToCssUnit unitPx ≠ unitPx ∧
      cssCascadeGridTemplateRowsTodo (buildOPV cssPropGridTemplateRows 0 gridTemplateSet)
        [1, 1024, unitPx] true = ⟨.ok, [1, 1024, unitPx], some cssGridTemplateNone⟩ ∧
      gridTemplateWords cssPropGridTemplateRows [(1024, unitPx)] =
        buildOPV cssPropGridTemplateRows 0 gridTemplateSet :: [1, 1024, unitPx] := by
  decide

end Css
end Neosurf
