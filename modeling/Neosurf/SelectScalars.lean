import Neosurf.GridTemplateCascade

/-!
# The select handlers of `grid-auto-flow`, `object-fit` and `object-position`

The cascade, hint, initial, copy and compose handlers of the three properties, and the
scalar companions of the `TODO` variant of `css__cascade_grid_template_rows`.  The keyword
cascades are one switch with a table each, and copy and compose one shape for all; computed
styles are a table from style numbers to values, so that aliasing of source, target, parent
and child is an input.  `opcodes.h` and `properties.h` are not under `src/`: the values
follow libcss's older properties.
-/

namespace Neosurf
namespace Css

/-! ### Values -/

def gridAutoFlowRow : ℕ := 0x0000
def gridAutoFlowColumn : ℕ := 0x0001
def gridAutoFlowRowDense : ℕ := 0x0002
def gridAutoFlowColumnDense : ℕ := 0x0003

def cssGridAutoFlowInherit : ℕ := 0x0
def cssGridAutoFlowRow : ℕ := 0x1
def cssGridAutoFlowColumn : ℕ := 0x2
def cssGridAutoFlowRowDense : ℕ := 0x3
def cssGridAutoFlowColumnDense : ℕ := 0x4

def objectFitFill : ℕ := 0x0000
def objectFitContain : ℕ := 0x0001
def objectFitCover : ℕ := 0x0002
def objectFitNone : ℕ := 0x0003
def objectFitScaleDown : ℕ := 0x0004

def cssObjectFitInherit : ℕ := 0x0
def cssObjectFitFill : ℕ := 0x1
def cssObjectFitContain : ℕ := 0x2
def cssObjectFitCover : ℕ := 0x3
def cssObjectFitNone : ℕ := 0x4
def cssObjectFitScaleDown : ℕ := 0x5

def objectPositionHorzSet : ℕ := 0x80
def objectPositionHorzCenter : ℕ := 0x40
def objectPositionHorzRight : ℕ := 0x20
def objectPositionHorzLeft : ℕ := 0x00
def objectPositionVertSet : ℕ := 0x08
def objectPositionVertCenter : ℕ := 0x04
def objectPositionVertBottom : ℕ := 0x02
def objectPositionVertTop : ℕ := 0x00

def cssObjectPositionInherit : ℕ := 0x0
def cssObjectPositionSet : ℕ := 0x1

/-- `INTTOFIX`: a `css_fixed` has ten fraction bits. -/
def intToFix (n : Int) : Int := n * 1024

/-! ### Keyword cascades -/

/-- The cascade of a keyword property: `switch (getValue(opv))` over the keys of `table`,
with `INHERIT` for any other value and for a flag value; `set_*` when the declaration
outranks.  No operand is read. -/
def cascadeKeyword (inherit : ℕ) (table : List (ℕ × ℕ)) (opv : Int) (bytecode : List Int)
    (outranks : Bool) : CascadeResult ℕ :=
  let value := if hasFlagValue opv = false then (table.lookup (getValue opv)).getD inherit else inherit
  ⟨.ok, bytecode, if outranks then some value else none⟩

/-- `css__cascade_grid_auto_flow`. -/
def cssCascadeGridAutoFlow (opv : Int) (bytecode : List Int) (outranks : Bool) : CascadeResult ℕ :=
  cascadeKeyword cssGridAutoFlowInherit
    [(gridAutoFlowRow, cssGridAutoFlowRow), (gridAutoFlowColumn, cssGridAutoFlowColumn),
      (gridAutoFlowRowDense, cssGridAutoFlowRowDense),
      (gridAutoFlowColumnDense, cssGridAutoFlowColumnDense)]
    opv bytecode outranks

/-- `css__cascade_object_fit`. -/
def cssCascadeObjectFit (opv : Int) (bytecode : List Int) (outranks : Bool) : CascadeResult ℕ :=
  cascadeKeyword cssObjectFitInherit
    [(objectFitFill, cssObjectFitFill), (objectFitContain, cssObjectFitContain),
      (objectFitCover, cssObjectFitCover), (objectFitNone, cssObjectFitNone),
      (objectFitScaleDown, cssObjectFitScaleDown)]
    opv bytecode outranks

/-- `css__initial_grid_auto_flow`. -/
def cssInitialGridAutoFlow : ℕ := cssGridAutoFlowRow

/-- `css__initial_object_fit`. -/
def cssInitialObjectFit : ℕ := cssObjectFitFill

/-- `css__initial_grid_template_rows` of the `TODO` variant. -/
def cssInitialGridTemplateRowsTodo : ℕ := cssGridTemplateNone

/-! ### Copy and compose -/

section Styles

variable {α : Type}

/-- `css__copy_*` over the computed styles: the source's value into the target, and nothing
when both are the same style. -/
def copyValue (src dst : ℕ) (styles : ℕ → α) : ℕ → α :=
  if src = dst then styles else Function.update styles dst (styles src)

/-- `css__compose_*`: the copy into `result` of the child's value, or of the parent's when
the child's is `INHERIT`. -/
def composeValue (isInherit : α → Bool) (parent child result : ℕ) (styles : ℕ → α) : ℕ → α :=
  copyValue (if isInherit (styles child) then parent else child) result styles

end Styles

/-- `css__copy_grid_auto_flow`. -/
def cssCopyGridAutoFlow (src dst : ℕ) (styles : ℕ → ℕ) : ℕ → ℕ := copyValue src dst styles

/-- `css__compose_grid_auto_flow`. -/
def cssComposeGridAutoFlow (parent child result : ℕ) (styles : ℕ → ℕ) : ℕ → ℕ :=
  composeValue (· = cssGridAutoFlowInherit) parent child result styles

/-- `css__copy_object_fit`. -/
def cssCopyObjectFit (src dst : ℕ) (styles : ℕ → ℕ) : ℕ → ℕ := copyValue src dst styles

/-- `css__compose_object_fit`. -/
def cssComposeObjectFit (parent child result : ℕ) (styles : ℕ → ℕ) : ℕ → ℕ :=
  composeValue (· = cssObjectFitInherit) parent child result styles

/-- `css__copy_grid_template_rows` of the `TODO` variant, over the scalar value. -/
def cssCopyGridTemplateRowsTodo (src dst : ℕ) (styles : ℕ → ℕ) : ℕ → ℕ := copyValue src dst styles

/-- `css__compose_grid_template_rows` of the `TODO` variant. -/
def cssComposeGridTemplateRowsTodo (parent child result : ℕ) (styles : ℕ → ℕ) : ℕ → ℕ :=
  composeValue (· = cssGridTemplateInherit) parent child result styles

/-! ### `object-position` -/

/-- The computed `object-position`: the type, and each axis's length and `css_unit`. -/
structure ObjectPosition where
  type : ℕ
  hlength : Int
  hunit : ℕ
  vlength : Int
  vunit : ℕ
  deriving DecidableEq, Repr

/-- One axis's `switch` of `css__cascade_object_position`: the length and raw unit word
when the bits say `SET`, the keyword's percentage, or the defaults `0` and `UNIT_PX` when no
case matches; and the bytecode after it. -/
def objectPositionAxis (set center far near bits : ℕ) (bytecode : List Int) :
    (Int × ℕ) × List Int :=
  if bits = set then ((bytecode.headD 0, (bytecode.tail.headD 0).toNat), bytecode.drop 2)
  else if bits = center then ((intToFix 50, unitPct), bytecode)
  else if bits = far then ((intToFix 100, unitPct), bytecode)
  else if bits = near then ((intToFix 0, unitPct), bytecode)
  else ((0, unitPx), bytecode)

/-- `css__cascade_object_position`: the horizontal bits `getValue(opv) & 0xf0`, then the
vertical bits `& 0x0f`, each unit through `css__to_css_unit`. -/
def cssCascadeObjectPosition (opv : Int) (bytecode : List Int) (outranks : Bool) :
    CascadeResult ObjectPosition :=
  let decoded : ℕ × (Int × ℕ) × (Int × ℕ) × List Int :=
    if hasFlagValue opv = false then
      let h := objectPositionAxis objectPositionHorzSet objectPositionHorzCenter
        objectPositionHorzRight objectPositionHorzLeft (getValue opv &&& 0xf0) bytecode
      let v := objectPositionAxis objectPositionVertSet objectPositionVertCenter
        objectPositionVertBottom objectPositionVertTop (getValue opv &&& 0x0f) h.2
      (cssObjectPositionSet, h.1, v.1, v.2)
    else (cssObjectPositionInherit, (0, unitPx), (0, unitPx), bytecode)
  ⟨.ok, decoded.2.2.2, if outranks then
    some ⟨decoded.1, decoded.2.1.1, cssToCssUnit decoded.2.1.2, decoded.2.2.1.1,
      cssToCssUnit decoded.2.2.1.2⟩
    else none⟩

/-- `css__set_object_position_from_hint`: the hint's status and positions. -/
def cssSetObjectPositionFromHint (status : ℕ) (h v : Int × ℕ) : ObjectPosition :=
  ⟨status, h.1, h.2, v.1, v.2⟩

/-- `css__initial_object_position`: `50% 50%`. -/
def cssInitialObjectPosition : ObjectPosition :=
  ⟨cssObjectPositionSet, intToFix 50, cssUnitPct, intToFix 50, cssUnitPct⟩

/-- `css__copy_object_position`. -/
def cssCopyObjectPosition (src dst : ℕ) (styles : ℕ → ObjectPosition) : ℕ → ObjectPosition :=
  copyValue src dst styles

/-- `css__compose_object_position`. -/
def cssComposeObjectPosition (parent child result : ℕ) (styles : ℕ → ObjectPosition) :
    ℕ → ObjectPosition :=
  composeValue (·.type = cssObjectPositionInherit) parent child result styles

end Css
end Neosurf
