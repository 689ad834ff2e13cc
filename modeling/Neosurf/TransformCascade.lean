import Neosurf.TransformParse
import Neosurf.GridTemplateCascade

/-!
# Cascading `transform`

`css__cascade_transform` (`src/unnamed/part_004`) decodes what
`css__parse_transform` emitted: nothing more for a flag value or
`TRANSFORM_NONE`; otherwise a count and, per function, a type word, a value,
a unit word, and a second value and unit for `translate` and `scale` only.
Units go through `css__to_css_unit`; a function without a second pair gets
`(0, CSS_UNIT_PX)`.  The array is handed to `set_transform` when the
declaration outranks.

The main result reads a parse back: whatever `css__parse_transform` emitted
on success, the cascade installs the functions it parsed and leaves the
bytecode cursor just past the declaration.
-/

namespace Neosurf
namespace Css

/-- `css_transform_function`. -/
structure CssTransformFunction where
  type : ℕ
  value1 : Int
  unit1 : ℕ
  value2 : Int
  unit2 : ℕ
  deriving DecidableEq, Repr

def cssTransformInherit : ℕ := 0x0
def cssTransformNone : ℕ := 0x1
def cssTransformFunctions : ℕ := 0x2

/-- One iteration of the `for` loop: the type word as `uint8_t`, the first
pair, and the second pair if the type word is `TRANSFORM_TRANSLATE` or
`TRANSFORM_SCALE`. -/
def readTransformFunction (bytecode : List Int) : CssTransformFunction × List Int :=
  let funcType := (bytecode.headD 0).toNat
  let value1 := bytecode.tail.headD 0
  let unit1 := cssToCssUnit (bytecode.tail.tail.headD 0).toNat
  let rest := bytecode.drop 3
  if funcType = transformTranslate ∨ funcType = transformScale then
    (⟨funcType % 256, value1, unit1, rest.headD 0, cssToCssUnit (rest.tail.headD 0).toNat⟩,
      rest.drop 2)
  else (⟨funcType % 256, value1, unit1, 0, cssUnitPx⟩, rest)

/-- The `for (i = 0; i < n_functions; i++)` loop. -/
def readTransformFunctions : ℕ → List Int → List CssTransformFunction × List Int
  | 0, rest => ([], rest)
  | n + 1, rest =>
      let f := readTransformFunction rest
      let r := readTransformFunctions n f.2
      (f.1 :: r.1, r.2)

/-- `css__cascade_transform`: the value, `n_functions` and the array passed
to `set_transform`.  `outranks` is the answer of `css__outranks_existing`;
`mallocOk` the answer of the array's `malloc`. -/
def cssCascadeTransform (opv : Int) (bytecode : List Int) (outranks mallocOk : Bool) :
    CascadeResult (ℕ × ℕ × Option (List CssTransformFunction)) :=
  let decoded : Option (ℕ × ℕ × Option (List CssTransformFunction) × List Int) :=
    if hasFlagValue opv = false then
      if getValue opv = transformNone then some (cssTransformNone, 0, none, bytecode)
      else
        let n := (bytecode.headD 0).toNat
        if 0 < n then
          if mallocOk then
            let r := readTransformFunctions n bytecode.tail
            some (cssTransformFunctions, n, some r.1, r.2)
          else none
        else some (cssTransformFunctions, 0, none, bytecode.tail)
    else some (cssTransformInherit, 0, none, bytecode)
  match decoded with
  | none => ⟨.nomem, bytecode.tail, none⟩
  | some (value, n, functions, rest) =>
      ⟨.ok, rest, if outranks then some (value, n, functions) else none⟩

/-! ### What the cascade should install

The computed form of a parsed record and of a parsed value, as the
property's description states it: the units converted, and `(0, px)` in
place of the second pair of a function that has none. -/

/-- The computed function of a parsed record. -/
def TransformRecord.computed (f : TransformRecord) : CssTransformFunction :=
  if hasSecondPair f.type then
    ⟨f.type, f.value1, cssToCssUnit f.unit1, f.value2, cssToCssUnit f.unit2⟩
  else ⟨f.type, f.value1, cssToCssUnit f.unit1, 0, cssUnitPx⟩

/-- What `set_transform` should receive for a parsed value. -/
def TransformValue.computed : TransformValue → ℕ × ℕ × Option (List CssTransformFunction)
  | .flag _ _ => (cssTransformInherit, 0, Option.none)
  | .none => (cssTransformNone, 0, Option.none)
  | .functions records _ _ => (cssTransformFunctions, records.length, some (records.map (·.computed)))

/-! ### Decoding -/

/-- One record is read back whole. -/
theorem readTransformFunction_words {f : TransformRecord} (htype : isTransformType f.type)
    (tail : List Int) : readTransformFunction (f.words ++ tail) = (f.computed, tail) := by
  have hlt : f.type % 256 = f.type := by
    simp only [isTransformType, transformTranslate, transformRotate, Bool.and_eq_true,
      decide_eq_true_eq] at htype
    omega
  by_cases hsecond : hasSecondPair f.type
  · have hc : f.type = transformTranslate ∨ f.type = transformScale := by
      simpa [hasSecondPair] using hsecond
    simp [readTransformFunction, TransformRecord.words, TransformRecord.computed, hsecond, hc, hlt]
  · have hc : ¬(f.type = transformTranslate ∨ f.type = transformScale) := by
      simpa [hasSecondPair] using hsecond
    simp only [hasSecondPair, decide_eq_true_eq] at hc
    simp [readTransformFunction, TransformRecord.words, TransformRecord.computed, hasSecondPair, hc,
      hlt]

/-- A list of records is read back whole, record by record. -/
theorem readTransformFunctions_words {records : List TransformRecord}
    (htypes : ∀ f ∈ records, isTransformType f.type) (tail : List Int) :
    readTransformFunctions records.length (records.flatMap TransformRecord.words ++ tail) =
      (records.map (·.computed), tail) := by
  induction records with
  | nil => rfl
  | cons f records ih =>
      simp only [List.mem_cons, forall_eq_or_imp] at htypes
      simp [readTransformFunctions, List.append_assoc, readTransformFunction_words htypes.1,
        ih htypes.2]

/-- Every value the parser can emit decodes to its computed form, with the
cursor just past its operands, whether or not it outranks. -/
theorem cssCascadeTransform_operands (v : TransformValue) (tail : List Int) (outranks : Bool) :
    cssCascadeTransform v.opv (v.operands ++ tail) outranks true =
      ⟨.ok, tail, if outranks then some v.computed else none⟩ := by
  cases v with
  | flag value hflag =>
      have hcode : value.code ≠ 0 := by cases value <;> simp_all [FlagValue.code]
      have hbits : value.code <<< 1 % 256 / 2 % 8 = value.code := by
        have : value.code < 8 := by cases value <;> simp [FlagValue.code]
        simp only [Nat.shiftLeft_eq]
        omega
      rw [cssCascadeTransform]
      simp [TransformValue.opv, TransformValue.operands, TransformValue.computed, hasFlagValue,
        hbits, hcode]
  | none =>
      rw [cssCascadeTransform]
      simp [TransformValue.opv, TransformValue.operands, TransformValue.computed, hasFlagValue,
        transformNone]
  | functions records hne htypes =>
      have hpos : 0 < records.length := List.length_pos.mpr hne
      rw [cssCascadeTransform]
      simp [TransformValue.opv, TransformValue.operands, TransformValue.computed, hasFlagValue,
        transformNone, hpos, readTransformFunctions_words htypes]

/-! ### The round trip -/

theorem cssParseTransform_cascade_roundTrip {c : CssLanguage} {vector : List CssToken}
    {s : ParseState} (hok : (cssParseTransform c vector s).1 = .ok) :
    ∃ v : TransformValue,
      (cssParseTransform c vector s).2.result = s.result ++ v.opv :: v.operands ∧
      ∀ tail outranks, cssCascadeTransform v.opv (v.operands ++ tail) outranks true =
        ⟨.ok, tail, if outranks then some v.computed else none⟩ :=
  let ⟨v, hv⟩ := cssParseTransform_ok hok
  ⟨v, hv, cssCascadeTransform_operands v⟩

theorem cssParseTransform_cascade_translateAngle :
    (cssParseTransform standardLanguage translateAngle ⟨0, [], []⟩).1 = .ok ∧
      ∃ v : TransformValue,
        (cssParseTransform standardLanguage translateAngle ⟨0, [], []⟩).2.result =
          v.opv :: v.operands ∧
        ∀ tail outranks, cssCascadeTransform v.opv (v.operands ++ tail) outranks true =
          ⟨.ok, tail, if outranks then some v.computed else none⟩ :=
  ⟨by decide, cssParseTransform_cascade_roundTrip (by decide)⟩

end Css
end Neosurf
