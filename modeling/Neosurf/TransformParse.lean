import Neosurf.GridTemplateParse

/-!
# Parsing `transform`

`css__parse_transform` (`parse/properties/transform.c`) emits
`[OPV TRANSFORM_NONE + 1][count]` and then one record per function:
`[type][value1][unit1]`, followed by `[value2][unit2]` for `translate` and
`scale`.  The count is a placeholder written back once the loop has counted
the functions.  `parse_transform_function` reads the arguments after the
function token; its first and second arguments are checked differently.

The loop ends on the first token that is not a function, stepping `*ctx`
back by one to "put the token back"; the whitespace skipped after that token
is not put back.
-/

namespace Neosurf
namespace Css

/-- `FDIV(a, F_100)`: `css_fixed` division by `100.0`, truncating as C does. -/
def fdiv100 (value : Int) : Int := Int.tdiv (value * 1024) (100 * 1024)

/-- The `scale()` argument reader: one `NUMBER` or `PERCENTAGE` token, read
whole; a percentage becomes a multiplier.  Like `css__parse_unit_specifier`
it gives the new `*ctx`, the value and the unit, or `none` for `CSS_INVALID`. -/
def scaleArgument (c : CssLanguage) (vector : List CssToken) (ctx : ℕ) : Option (ℕ × Int × ℕ) :=
  match vector[ctx]? with
  | none => none
  | some token =>
      let value := (c.numberFromLwcString token.idata false).1
      if (token.type = .number ∨ token.type = .percentage) ∧
          (c.numberFromLwcString token.idata false).2 = token.idata.length then
        if token.type = .percentage then some (ctx + 1, fdiv100 value, unitPct)
        else some (ctx + 1, value, unitNumber)
      else none

/-- The first argument of `parse_transform_function`: an angle for `rotate`,
a number for the scales, otherwise a value whose unit is not an angle, time or
frequency, and a percentage only when `allow_pct`. -/
def firstArgument (c : CssLanguage) (vector : List CssToken) (isScale allowPct isAngle : Bool)
    (ctx : ℕ) : Option (ℕ × Int × ℕ) :=
  if isAngle then
    (cssParseUnitSpecifier c vector ctx unitDeg).filter fun r => r.2.2 &&& unitAngle ≠ 0
  else if isScale then scaleArgument c vector ctx
  else
    (cssParseUnitSpecifier c vector ctx unitPx).filter fun r =>
      !angleTimeOrFreq r.2.2 && (allowPct || r.2.2 &&& unitPct = 0)

/-- The second argument of `parse_transform_function`: as the first, but no
unit is checked. -/
def secondArgument (c : CssLanguage) (vector : List CssToken) (isScale isAngle : Bool) (ctx : ℕ) :
    Option (ℕ × Int × ℕ) :=
  if isAngle then cssParseUnitSpecifier c vector ctx unitDeg
  else if isScale then scaleArgument c vector ctx
  else cssParseUnitSpecifier c vector ctx unitPx

/-- The optional `, second` of a two-argument function, or its default:
`translate(x)` is `translate(x, 0px)` and `scale(x)` is `scale(x, x)`. -/
def transformSecond (c : CssLanguage) (vector : List CssToken) (funcType : ℕ)
    (isScale isAngle : Bool) (value1 : Int) (unit1 : ℕ) (ctx : ℕ) : Option (ℕ × Int × ℕ) :=
  match vector[ctx]? with
  | some token =>
      if tokenIsChar token ',' then
        (secondArgument c vector isScale isAngle (consumeWhitespace vector (ctx + 1))).map
          fun r => (consumeWhitespace vector r.1, r.2)
      else transformSecondDefault funcType value1 unit1 ctx
  | none => transformSecondDefault funcType value1 unit1 ctx
where
  /-- No comma: the defaults of `translate(x)` and `scale(x)`. -/
  transformSecondDefault (funcType : ℕ) (value1 : Int) (unit1 ctx : ℕ) : Option (ℕ × Int × ℕ) :=
    if funcType = transformTranslate then some (ctx, 0, unitPx)
    else if funcType = transformScale then some (ctx, value1, unit1)
    else some (ctx, 0, 0)

/-- The reading half of `parse_transform_function`: both arguments and the
closing parenthesis.  The `*ctx` after the `)` and the two value pairs, or
`none` where the function restores `*ctx` and returns `CSS_INVALID`. -/
def transformArguments (c : CssLanguage) (vector : List CssToken) (funcType numArgs : ℕ)
    (allowPct isAngle : Bool) (ctx : ℕ) : Option (ℕ × Int × ℕ × Int × ℕ) :=
  let isScale := funcType = transformScale ∨ funcType = transformScaleX ∨ funcType = transformScaleY
  match firstArgument c vector isScale allowPct isAngle (consumeWhitespace vector ctx) with
  | none => none
  | some (next, value1, unit1) =>
      let second :=
        if numArgs = 2 then
          transformSecond c vector funcType isScale isAngle value1 unit1 (consumeWhitespace vector next)
        else some (consumeWhitespace vector next, 0, 0)
      match second with
      | none => none
      | some (close, value2, unit2) =>
          match vector[close]? with
          | some token =>
              if tokenIsChar token ')' then some (close + 1, value1, unit1, value2, unit2) else none
          | none => none

/-- The record appends at the end of `parse_transform_function`; a failing
append returns its error without touching `*ctx`. -/
def appendTransformRecord (funcType numArgs : ℕ) (value1 : Int) (unit1 : ℕ) (value2 : Int)
    (unit2 : ℕ) : ParseM CssError :=
  guardError (styleAppend funcType) (pure ()) <|
  guardError (styleVappend2 value1 unit1) (pure ()) <|
  if numArgs = 2 ∨ funcType = transformTranslate ∨ funcType = transformScale then
    styleVappend2 value2 unit2
  else pure .ok

/-- `parse_transform_function`, entered after the function token. -/
def parseTransformFunction (c : CssLanguage) (vector : List CssToken) (funcType numArgs : ℕ)
    (allowPct isAngle : Bool) : ParseM CssError := fun s =>
  match transformArguments c vector funcType numArgs allowPct isAngle s.ctx with
  | none => (.invalid, s)
  | some (next, value1, unit1, value2, unit2) =>
      appendTransformRecord funcType numArgs value1 unit1 value2 unit2 { s with ctx := next }

/-- The function names `css__parse_transform` knows, with the arguments it
passes to `parse_transform_function`: type, `num_args`, `allow_pct`, `is_angle`. -/
def transformFunctionKind (name : String) : Option (ℕ × ℕ × Bool × Bool) :=
  if caselessIsEqual name "translate" then some (transformTranslate, 2, true, false)
  else if caselessIsEqual name "translatex" then some (transformTranslateX, 1, true, false)
  else if caselessIsEqual name "translatey" then some (transformTranslateY, 1, true, false)
  else if caselessIsEqual name "scale" then some (transformScale, 2, true, false)
  else if caselessIsEqual name "scalex" then some (transformScaleX, 1, true, false)
  else if caselessIsEqual name "scaley" then some (transformScaleY, 1, true, false)
  else if caselessIsEqual name "rotate" then some (transformRotate, 1, false, true)
  else none

/-- How the function loop ended: `break` with the count, or a `return` of an
error. -/
inductive LoopExit
  | brk (count : ℕ)
  | ret (error : CssError)
  deriving DecidableEq, Repr

/-- The `while (1)` loop of `css__parse_transform`, with `fuel` iterations;
every iteration that goes on moves `*ctx` forward, so the length of the
vector is enough. -/
def transformLoop (c : CssLanguage) (vector : List CssToken) (orig : ℕ) :
    ℕ → ℕ → ParseM LoopExit
  | 0, count => pure (.brk count)
  | fuel + 1, count => fun s =>
      match vector[s.ctx]? with
      | none => (.brk count, s)
      | some token =>
          let ctx := consumeWhitespace vector (s.ctx + 1)
          if token.type ≠ .function then (.brk count, { s with ctx := ctx - 1 })
          else
            match transformFunctionKind token.idata with
            | none => (.ret .invalid, { s with ctx := orig })
            | some (funcType, numArgs, allowPct, isAngle) =>
                let r := parseTransformFunction c vector funcType numArgs allowPct isAngle
                  { s with ctx := ctx }
                if r.1 ≠ .ok then (.ret r.1, { r.2 with ctx := orig })
                else transformLoop c vector orig fuel (count + 1)
                  { r.2 with ctx := consumeWhitespace vector r.2.ctx }

/-- The function-list half of `css__parse_transform`: the OPV, the count
placeholder, the loop, and the count written back. -/
def transformFunctions (c : CssLanguage) (vector : List CssToken) (orig : ℕ) : ParseM CssError :=
  guardError (styleAppendOPV cssPropTransform 0 (transformNone + 1)) (setCtx orig) fun s =>
    let countPos := s.result.length
    guardError (styleAppend 0) (setCtx orig) (fun s =>
      match transformLoop c vector orig vector.length 0 { s with ctx := orig } with
      | (.ret error, s') => (error, s')
      | (.brk count, s') =>
          if count = 0 then (.invalid, { s' with ctx := orig })
          else (.ok, { s' with result := s'.result.set countPos count })) s

/-- `css__parse_transform`.  The keyword returns hand back the helper's error
as it is, without restoring `*ctx`. -/
def cssParseTransform (c : CssLanguage) (vector : List CssToken) : ParseM CssError := fun s =>
  match vector[s.ctx]? with
  | none => (.invalid, s)
  | some token =>
      let flag := getCssFlagValue token
      if flag ≠ .none then styleFlagValue flag cssPropTransform { s with ctx := s.ctx + 1 }
      else if isKeyword token "none" then
        styleAppendOPV cssPropTransform 0 transformNone { s with ctx := s.ctx + 1 }
      else transformFunctions c vector s.ctx s

/-! ### What a successful parse emits

A record is the type word and the two value pairs of one function; only
`translate` and `scale` records carry the second pair in the bytecode. -/

/-- One function as `parse_transform_function` emits it, units as bytecode
unit words. -/
structure TransformRecord where
  type : ℕ
  value1 : Int
  unit1 : ℕ
  value2 : Int
  unit2 : ℕ
  deriving DecidableEq, Repr

/-- The types whose record carries its second value pair. -/
def hasSecondPair (funcType : ℕ) : Bool :=
  funcType = transformTranslate ∨ funcType = transformScale

/-- The words of one record. -/
def TransformRecord.words (f : TransformRecord) : List Int :=
  [(f.type : Int), f.value1, (f.unit1 : Int)] ++
    if hasSecondPair f.type then [f.value2, (f.unit2 : Int)] else []

/-- The function types of `opcodes.h`, `TRANSFORM_TRANSLATE` to `TRANSFORM_ROTATE`. -/
def isTransformType (funcType : ℕ) : Bool :=
  transformTranslate ≤ funcType && funcType ≤ transformRotate

/-- The kind table gives a known type, and two arguments exactly to the
types with a second pair. -/
theorem transformFunctionKind_spec {name : String} {funcType numArgs : ℕ} {allowPct isAngle : Bool}
    (h : transformFunctionKind name = some (funcType, numArgs, allowPct, isAngle)) :
    isTransformType funcType ∧ (numArgs = 2 ↔ hasSecondPair funcType) := by
  unfold transformFunctionKind at h
  -- one row of the table per round; the last `else` answers `none`
  iterate 7 (rcases ite_eq_iff.1 h with ⟨-, h⟩ | ⟨-, h⟩; · cases h; decide)
  cases h

/-- What a successful `css__parse_transform` emitted: a CSS-wide keyword,
`none`, or a non-empty list of known functions. -/
inductive TransformValue
  | flag (flag : FlagValue) (hflag : flag ≠ .none)
  | none
  | functions (records : List TransformRecord) (hne : records ≠ [])
      (htypes : ∀ f ∈ records, isTransformType f.type)

/-- The OPV of a transform value. -/
def TransformValue.opv : TransformValue → Int
  | .flag value _ => buildOPV cssPropTransform (value.code <<< 1) 0
  | .none => buildOPV cssPropTransform 0 transformNone
  | .functions _ _ _ => buildOPV cssPropTransform 0 (transformNone + 1)

/-- The operand words after the OPV: the count and the records. -/
def TransformValue.operands : TransformValue → List Int
  | .functions records _ _ => (records.length : Int) :: records.flatMap TransformRecord.words
  | _ => []

section Emit

variable {c : CssLanguage} {vector : List CssToken} {s : ParseState}

/-- A successful append emitted exactly one record. -/
theorem appendTransformRecord_ok {funcType numArgs : ℕ} {value1 value2 : Int} {unit1 unit2 : ℕ}
    (hargs : numArgs = 2 ↔ hasSecondPair funcType)
    (h : (appendTransformRecord funcType numArgs value1 unit1 value2 unit2 s).1 = .ok) :
    (appendTransformRecord funcType numArgs value1 unit1 value2 unit2 s).2.result =
      s.result ++ (TransformRecord.mk funcType value1 unit1 value2 unit2).words := by
  have hcond : (numArgs = 2 ∨ funcType = transformTranslate ∨ funcType = transformScale) ↔
      hasSecondPair funcType := by
    simp only [hasSecondPair, decide_eq_true_eq] at hargs ⊢
    tauto
  rw [appendTransformRecord] at h ⊢
  obtain ⟨h1, e1⟩ := guardError_ok h
  rw [e1] at h ⊢
  obtain ⟨h2, e2⟩ := guardError_ok h
  rw [e2] at h ⊢
  have r1 : (styleAppend funcType s).2.result = s.result ++ [(funcType : Int)] := by
    rw [styleAppend_ok h1]
  have r2 := (styleVappend2_ok h2).1
  by_cases hc : hasSecondPair funcType
  · rw [if_pos (hcond.mpr hc)] at h ⊢
    simp [(styleVappend2_ok h).1, r2, r1, TransformRecord.words, hc]
  · rw [if_neg (mt hcond.mp hc)]
    simp [r2, r1, TransformRecord.words, hc]

theorem parseTransformFunction_ok {funcType numArgs : ℕ} {allowPct isAngle : Bool}
    (hargs : numArgs = 2 ↔ hasSecondPair funcType)
    (h : (parseTransformFunction c vector funcType numArgs allowPct isAngle s).1 = .ok) :
    ∃ value1 unit1 value2 unit2,
      (parseTransformFunction c vector funcType numArgs allowPct isAngle s).2.result =
        s.result ++ (TransformRecord.mk funcType value1 unit1 value2 unit2).words := by
  rcases harg : transformArguments c vector funcType numArgs allowPct isAngle s.ctx with
    _ | ⟨next, value1, unit1, value2, unit2⟩
  · simp only [parseTransformFunction, harg] at h
    cases h
  · simp only [parseTransformFunction, harg] at h ⊢
    exact ⟨value1, unit1, value2, unit2, appendTransformRecord_ok hargs h⟩

/-- One iteration of the function loop: it breaks with the count so far and
the bytecode untouched, returns an error with `*ctx` restored, or parses one
known function and goes on. -/
theorem transformLoop_succ_cases (orig fuel count : ℕ) (s : ParseState) :
    (∃ ctx, transformLoop c vector orig (fuel + 1) count s = (.brk count, { s with ctx := ctx })) ∨
    (∃ error result alloc, error ≠ .ok ∧
      transformLoop c vector orig (fuel + 1) count s = (.ret error, ⟨orig, result, alloc⟩)) ∨
    ∃ token funcType numArgs allowPct isAngle, vector[s.ctx]? = some token ∧
      transformFunctionKind token.idata = some (funcType, numArgs, allowPct, isAngle) ∧
      (parseTransformFunction c vector funcType numArgs allowPct isAngle
        { s with ctx := consumeWhitespace vector (s.ctx + 1) }).1 = .ok ∧
      transformLoop c vector orig (fuel + 1) count s =
        transformLoop c vector orig fuel (count + 1)
          { (parseTransformFunction c vector funcType numArgs allowPct isAngle
              { s with ctx := consumeWhitespace vector (s.ctx + 1) }).2 with
            ctx := consumeWhitespace vector (parseTransformFunction c vector funcType numArgs
              allowPct isAngle { s with ctx := consumeWhitespace vector (s.ctx + 1) }).2.ctx } := by
  simp only [transformLoop]
  rcases htok : vector[s.ctx]? with _ | token
  · exact .inl ⟨s.ctx, rfl⟩
  by_cases hfun : token.type = .function
  swap
  · simp only [hfun, ne_eq, not_false_eq_true, if_true]
    exact .inl ⟨_, rfl⟩
  rcases hk : transformFunctionKind token.idata with _ | ⟨funcType, numArgs, allowPct, isAngle⟩
  · simp only [hfun, hk, ne_eq, not_true_eq_false, if_false]
    exact .inr (.inl ⟨.invalid, _, _, by decide, rfl⟩)
  by_cases hok : (parseTransformFunction c vector funcType numArgs allowPct isAngle
      { s with ctx := consumeWhitespace vector (s.ctx + 1) }).1 = .ok
  · simp only [hfun, hk, hok, ne_eq, not_true_eq_false, if_false]
    exact .inr (.inr ⟨token, funcType, numArgs, allowPct, isAngle, rfl, hk, hok, rfl⟩)
  · simp only [hfun, hk, hok, ne_eq, not_true_eq_false, not_false_eq_true, if_false, if_true]
    exact .inr (.inl ⟨_, _, _, hok, rfl⟩)

/-- The loop returns only failures. -/
theorem transformLoop_ret {orig fuel count : ℕ} {error : CssError}
    (h : (transformLoop c vector orig fuel count s).1 = .ret error) : error ≠ .ok := by
  induction fuel generalizing count s with
  | zero => cases h
  | succ fuel ih =>
      rcases transformLoop_succ_cases orig fuel count s with
        ⟨ctx, e⟩ | ⟨error', result, alloc, hne, e⟩ | ⟨_, _, _, _, _, _, _, _, e⟩ <;> rw [e] at h
      · cases h
      · cases h
        exact hne
      · exact ih h

/-- A loop that breaks emitted one record per function it counted. -/
theorem transformLoop_brk {orig fuel count k : ℕ}
    (h : (transformLoop c vector orig fuel count s).1 = .brk k) :
    ∃ records : List TransformRecord, (∀ f ∈ records, isTransformType f.type) ∧
      k = count + records.length ∧
      (transformLoop c vector orig fuel count s).2.result =
        s.result ++ records.flatMap TransformRecord.words := by
  induction fuel generalizing count s with
  | zero =>
      cases h
      exact ⟨[], by simp, rfl, by simp [transformLoop]⟩
  | succ fuel ih =>
      rcases transformLoop_succ_cases orig fuel count s with
        ⟨ctx, e⟩ | ⟨error', result, alloc, hne, e⟩ |
          ⟨token, funcType, numArgs, allowPct, isAngle, -, hk, hok, e⟩ <;> rw [e] at h ⊢
      · cases h
        exact ⟨[], by simp, rfl, by simp⟩
      · cases h
      · obtain ⟨htype, hargs⟩ := transformFunctionKind_spec hk
        obtain ⟨value1, unit1, value2, unit2, hrec⟩ := parseTransformFunction_ok hargs hok
        obtain ⟨records, htypes, hcount, hres⟩ := ih h
        refine ⟨⟨funcType, value1, unit1, value2, unit2⟩ :: records, ?_, by simp [hcount]; omega, ?_⟩
        · simp only [List.mem_cons, forall_eq_or_imp]
          exact ⟨htype, htypes⟩
        · rw [hres]
          simp [hrec]

theorem transformFunctions_ok {orig : ℕ} (h : (transformFunctions c vector orig s).1 = .ok) :
    ∃ records : List TransformRecord, records ≠ [] ∧ (∀ f ∈ records, isTransformType f.type) ∧
      (transformFunctions c vector orig s).2.result =
        s.result ++ buildOPV cssPropTransform 0 (transformNone + 1) :: (records.length : Int) ::
          records.flatMap TransformRecord.words := by
  rw [transformFunctions] at h ⊢
  obtain ⟨h1, e1⟩ := guardError_ok h
  rw [e1] at h ⊢
  obtain ⟨h2, e2⟩ := guardError_ok h
  rw [e2] at h ⊢
  have r1 : (styleAppendOPV cssPropTransform 0 (transformNone + 1) s).2.result =
      s.result ++ [buildOPV cssPropTransform 0 (transformNone + 1)] := by
    rw [styleAppendOPV, styleAppend_ok h1]
  have r2 := styleAppend_ok h2
  rcases hl : transformLoop c vector orig vector.length 0
      { (styleAppend 0 (styleAppendOPV cssPropTransform 0 (transformNone + 1) s).2).2 with
        ctx := orig } with ⟨⟨count⟩ | ⟨error⟩, s'⟩
  · by_cases hc : count = 0
    · simp only [hl, hc, if_true] at h
      cases h
    simp only [hl, hc, if_false]
    obtain ⟨records, htypes, hcount, hres⟩ := transformLoop_brk (congrArg Prod.fst hl)
    rw [hl] at hres
    refine ⟨records, ?_, htypes, ?_⟩
    · rintro rfl
      exact hc (by simpa using hcount)
    · rw [hres, r2]
      simp [r1, hcount]
  · simp only [hl] at h
    exact absurd h (transformLoop_ret (congrArg Prod.fst hl))

/-- A successful parse emitted one transform value. -/
theorem cssParseTransform_ok (h : (cssParseTransform c vector s).1 = .ok) :
    ∃ v : TransformValue, (cssParseTransform c vector s).2.result = s.result ++ v.opv :: v.operands := by
  rcases htok : vector[s.ctx]? with _ | token
  · simp only [cssParseTransform, htok] at h
    cases h
  by_cases hflag : getCssFlagValue token = .none
  · by_cases hnone : isKeyword token "none"
    · simp only [cssParseTransform, htok, hflag, hnone, ne_eq, not_true_eq_false, if_false,
        if_true] at h ⊢
      exact ⟨.none, by rw [styleAppendOPV, styleAppend_ok h]; rfl⟩
    · simp only [cssParseTransform, htok, hflag, hnone, ne_eq, not_true_eq_false, if_false,
        Bool.false_eq_true] at h ⊢
      obtain ⟨records, hne, htypes, hres⟩ := transformFunctions_ok h
      exact ⟨.functions records hne htypes, hres⟩
  · simp only [cssParseTransform, htok, hflag, ne_eq, not_false_eq_true, if_true] at h ⊢
    exact ⟨.flag _ hflag, by rw [styleFlagValue, styleAppendOPV, styleAppend_ok h]; rfl⟩

end Emit

/-! ### The failing inputs of the transform grammar

In `translate(1px) foo ` the loop reads `foo`, skips the whitespace after
it, and steps back one token only: `*ctx` ends past `foo`, on whitespace, so
the declaration parser finds nothing left and accepts the value.  In
`translate(1px, 10deg)` the second argument is an angle: only the first
argument's unit is checked. -/

/-- The tokens of `translate(1px) foo `. -/
def translateThenIdent : List CssToken :=
  [⟨.function, "translate"⟩, ⟨.dimension, "1px"⟩, ⟨.char, ")"⟩, ⟨.s, " "⟩, ⟨.ident, "foo"⟩,
    ⟨.s, " "⟩]

/-- The tokens of `translate(1px, 10deg)`. -/
def translateAngle : List CssToken :=
  [⟨.function, "translate"⟩, ⟨.dimension, "1px"⟩, ⟨.char, ","⟩, ⟨.s, " "⟩,
    ⟨.dimension, "10deg"⟩, ⟨.char, ")"⟩]

theorem cssParseTransform_skips_ident :
    (cssParseTransform standardLanguage translateThenIdent ⟨0, [], []⟩).1 = .ok ∧
      (cssParseTransform standardLanguage translateThenIdent ⟨0, [], []⟩).2.ctx = 5 ∧
      translateThenIdent[4]? = some ⟨.ident, "foo"⟩ ∧ atEndOfValue translateThenIdent 5 ∧
      cssParseTransform standardLanguage translateAngle ⟨0, [], []⟩ =
        (.ok, ⟨6, [buildOPV cssPropTransform 0 (transformNone + 1), 1, transformTranslate,
          1024, unitPx, 10240, unitDeg], []⟩) := by
  decide

end Css
end Neosurf
