import Neosurf.CssTokens

/-!
# Style bytecode and the allocating helpers of the property parsers

A property parser appends `css_code_t` words to its `result` style: an OPV
word (opcode, flags, value) followed by operand words.  The helpers that
append may fail on allocation.  A parser is modelled as a state-passing
function returning its `css_error`, over `*ctx`, the words of `result`, and
the allocator's remaining answers, so that every pattern of allocation
success and failure is one input of the model.

Unit codes, OPV packing and `css__to_css_unit` come from libcss's
`bytecode/bytecode.h`, `bytecode/opcodes.h` and `select/helpers.h`, which are
not under `src/`.  The values of neosurf's additions (`UNIT_FR`,
`UNIT_NUMBER`, the grid, gap and transform opcodes and values) are not known
here; every result below uses only that they are pairwise distinct, that unit
codes keep libcss's class bits, and that `css_unit` values are below 256.
-/

namespace Neosurf
namespace Css

/-- `css_error`, as far as the modelled code produces it. -/
inductive CssError
  | ok | nomem | badparm | invalid
  deriving DecidableEq, Repr

/-! ### Unit codes (`enum unit` of `bytecode.h`) -/

def unitLength : ℕ := 1 <<< 8
def unitPx : ℕ := unitLength
def unitQ : ℕ := unitLength + 20
def unitPct : ℕ := 1 <<< 9
def unitAngle : ℕ := 1 <<< 10
def unitDeg : ℕ := unitAngle
def unitTurn : ℕ := unitAngle + 3
def unitTime : ℕ := 1 <<< 11
def unitS : ℕ := unitTime + 1
def unitFreq : ℕ := 1 <<< 12
def unitKhz : ℕ := unitFreq + 1
def unitResolution : ℕ := 1 <<< 13
def unitDppx : ℕ := unitResolution + 2
def unitFr : ℕ := 1 <<< 14
def unitNumber : ℕ := 1 <<< 15

/-- The `unit & UNIT_ANGLE || unit & UNIT_TIME || unit & UNIT_FREQ` test of the
gap and transform parsers. -/
def angleTimeOrFreq (unit : ℕ) : Bool :=
  unit &&& unitAngle ≠ 0 || unit &&& unitTime ≠ 0 || unit &&& unitFreq ≠ 0

/-! ### `css_unit` (`include/libcss/types.h`) and `css__to_css_unit` -/

def cssUnitPx : ℕ := 0x00
def cssUnitPct : ℕ := 0x15
def cssUnitDeg : ℕ := 0x16
def cssUnitMs : ℕ := 0x1a
def cssUnitHz : ℕ := 0x1c
def cssUnitDpi : ℕ := 0x1e
def cssUnitFr : ℕ := 0x21

/-- `css__to_css_unit`: the switch from bytecode unit codes to `css_unit`.
Both enumerations list each class in the same order, so a class's cases are
`UNIT_CLASS + k ↦ CSS_UNIT_FIRST + k`; any other code falls back to px. -/
def cssToCssUnit (u : ℕ) : ℕ :=
  if unitLength ≤ u ∧ u ≤ unitQ then u - unitLength
  else if u = unitPct then cssUnitPct
  else if unitAngle ≤ u ∧ u ≤ unitTurn then cssUnitDeg + (u - unitAngle)
  else if unitTime ≤ u ∧ u ≤ unitS then cssUnitMs + (u - unitTime)
  else if unitFreq ≤ u ∧ u ≤ unitKhz then cssUnitHz + (u - unitFreq)
  else if unitResolution ≤ u ∧ u ≤ unitDppx then cssUnitDpi + (u - unitResolution)
  else if u = unitFr then cssUnitFr
  else cssUnitPx

/-! ### OPV words -/

/-- `buildOPV`: opcode in bits 0-9, flags in bits 10-17, value from bit 18. -/
def buildOPV (opcode flags value : ℕ) : Int :=
  (opcode % 1024 + flags % 256 * 1024 + value % 16384 * 262144 : ℕ)

def getOpcode (opv : Int) : ℕ := opv.toNat % 1024
def getFlags (opv : Int) : ℕ := opv.toNat / 1024 % 256
def getValue (opv : Int) : ℕ := opv.toNat / 262144
def isImportant (opv : Int) : Bool := getFlags opv % 2 = 1
/-- `getFlagValue`: the `enum flag_value` in bits 1-3 of the flags. -/
def getFlagValue (opv : Int) : ℕ := getFlags opv / 2 % 8
def hasFlagValue (opv : Int) : Bool := getFlagValue opv ≠ 0

@[simp] theorem getValue_buildOPV (opcode flags value : ℕ) :
    getValue (buildOPV opcode flags value) = value % 16384 := by
  simp only [getValue, buildOPV, Int.toNat_ofNat]
  omega

theorem getFlags_buildOPV (opcode flags value : ℕ) :
    getFlags (buildOPV opcode flags value) = flags % 256 := by
  simp only [getFlags, buildOPV, Int.toNat_ofNat]
  omega

@[simp] theorem getFlagValue_buildOPV (opcode flags value : ℕ) :
    getFlagValue (buildOPV opcode flags value) = flags % 256 / 2 % 8 := by
  rw [getFlagValue, getFlags_buildOPV]

/-! ### Opcodes and values (`opcodes.h`) -/

def cssPropBackgroundImage : ℕ := 0x004
def cssPropAlignContent : ℕ := 0x06b
def cssPropJustifyContent : ℕ := 0x06f
def cssPropTransform : ℕ := 0x080
def cssPropRowGap : ℕ := 0x081
def cssPropColumnGap : ℕ := 0x01d
def cssPropGridTemplateColumns : ℕ := 0x082
def cssPropGridTemplateRows : ℕ := 0x083
def cssPropGridRowStart : ℕ := 0x084
def cssPropGridColumnStart : ℕ := 0x085
def cssPropGridRowEnd : ℕ := 0x086
def cssPropGridColumnEnd : ℕ := 0x087

def backgroundImageNone : ℕ := 0x0000
def backgroundImageUri : ℕ := 0x0080
def gridTemplateNone : ℕ := 0x0000
def gridTemplateSet : ℕ := 0x0080
def rowGapNormal : ℕ := 0x0000
def rowGapSet : ℕ := 0x0080
def columnGapNormal : ℕ := 0x0000
def columnGapSet : ℕ := 0x0080
/-- `CSS_GRID_LINE_AUTO`, `CSS_GRID_LINE_SET`: the grid-area parser emits the
computed values of `css_grid_line_e` as OPV values. -/
def cssGridLineAuto : ℕ := 0x1
def cssGridLineSet : ℕ := 0x2
def transformNone : ℕ := 0x0000
def transformTranslate : ℕ := 1
def transformTranslateX : ℕ := 2
def transformTranslateY : ℕ := 3
def transformScale : ℕ := 4
def transformScaleX : ℕ := 5
def transformScaleY : ℕ := 6
def transformRotate : ℕ := 7

/-! ### The parser state -/

/-- What a property parser mutates: `*ctx`, the words of its `result` style,
and the allocator's answers still to come (`true`: that allocation fails;
once the list is exhausted every allocation succeeds). -/
structure ParseState where
  ctx : ℕ
  result : List Int
  alloc : List Bool
  deriving DecidableEq, Repr

/-- A parser step: a state-passing function. -/
def ParseM (α : Type) : Type := ParseState → α × ParseState

instance : Monad ParseM where
  pure a s := (a, s)
  bind m f s := f (m s).1 (m s).2

namespace ParseM

variable {α β : Type}

@[simp] theorem pure_apply (a : α) (s : ParseState) : (pure a : ParseM α) s = (a, s) := rfl

@[simp] theorem bind_apply (m : ParseM α) (f : α → ParseM β) (s : ParseState) :
    (m >>= f) s = f (m s).1 (m s).2 := rfl

end ParseM

def getCtx : ParseM ℕ := fun s => (s.ctx, s)

def setCtx (ctx : ℕ) : ParseM Unit := fun s => ((), { s with ctx := ctx })

/-- `parserutils_vector_iterate(vector, ctx)` on the state's `*ctx`. -/
def iterate (vector : List CssToken) : ParseM (Option CssToken) := fun s =>
  let r := parserutilsVectorIterate vector s.ctx
  (r.1, { s with ctx := r.2 })

/-- `parserutils_vector_peek(vector, *ctx)`. -/
def peek (vector : List CssToken) : ParseM (Option CssToken) := fun s =>
  (parserutilsVectorPeek vector s.ctx, s)

/-- `consumeWhitespace(vector, ctx)`. -/
def skipWhitespace (vector : List CssToken) : ParseM Unit := fun s =>
  ((), { s with ctx := consumeWhitespace vector s.ctx })

/-- The allocator's next answer: `true` when the allocation succeeds. -/
def allocate : ParseM Bool := fun s => (!s.alloc.headD false, { s with alloc := s.alloc.tail })

/-- `css__stylesheet_style_append`: one word, if the allocator lets the
bytecode grow. -/
def styleAppend (code : Int) : ParseM CssError := fun s =>
  if s.alloc.headD false then (.nomem, { s with alloc := s.alloc.tail })
  else (.ok, { s with result := s.result ++ [code], alloc := s.alloc.tail })

/-- The C idiom `error = step; if (error != CSS_OK) { onError; return error; }`
followed by `rest`. -/
def guardError (step : ParseM CssError) (onError : ParseM Unit) (rest : ParseM CssError) :
    ParseM CssError := fun s =>
  if (step s).1 = .ok then rest (step s).2 else ((step s).1, (onError (step s).2).2)

/-- `css__stylesheet_style_vappend(result, 2, a, b)`: two appends, stopping at
the first failure. -/
def styleVappend2 (a b : Int) : ParseM CssError :=
  guardError (styleAppend a) (pure ()) (styleAppend b)

/-- `css__stylesheet_style_appendOPV`. -/
def styleAppendOPV (opcode flags value : ℕ) : ParseM CssError :=
  styleAppend (buildOPV opcode flags value)

/-- `css_stylesheet_style_flag_value`: the OPV with the flag value in bits 1-3
of its flags. -/
def styleFlagValue (flag : FlagValue) (opcode : ℕ) : ParseM CssError :=
  styleAppendOPV opcode (flag.code <<< 1) 0

/-- `css__stylesheet_style_create`: a fresh empty style, if allocation succeeds. -/
def styleCreate : ParseM (CssError × List Int) := do
  let fine ← allocate
  return if fine then (.ok, []) else (.nomem, [])

/-- `css__stylesheet_merge_style(result, style)`: appends `style`'s words. -/
def mergeStyle (style : List Int) : ParseM CssError := fun s =>
  if s.alloc.headD false then (.nomem, { s with alloc := s.alloc.tail })
  else (.ok, { s with result := s.result ++ style, alloc := s.alloc.tail })

/-- Runs a property parser on the local style `style` instead of `result`,
returning its error and the words it left in `style`. -/
def parseInto (parser : ParseM CssError) (style : List Int) : ParseM (CssError × List Int) :=
  fun s =>
    let r := parser { s with result := style }
    ((r.1, r.2.result), { r.2 with result := s.result })

section Frame

variable {s : ParseState}

@[simp] theorem getCtx_apply : getCtx s = (s.ctx, s) := rfl
@[simp] theorem setCtx_apply (ctx : ℕ) : setCtx ctx s = ((), { s with ctx := ctx }) := rfl
@[simp] theorem iterate_apply (vector : List CssToken) :
    iterate vector s = ((parserutilsVectorIterate vector s.ctx).1,
      { s with ctx := (parserutilsVectorIterate vector s.ctx).2 }) := rfl
@[simp] theorem peek_apply (vector : List CssToken) :
    peek vector s = (parserutilsVectorPeek vector s.ctx, s) := rfl
@[simp] theorem skipWhitespace_apply (vector : List CssToken) :
    skipWhitespace vector s = ((), { s with ctx := consumeWhitespace vector s.ctx }) := rfl

/-- A successful append added its word and used one answer of the allocator. -/
theorem styleAppend_ok {code : Int} (h : (styleAppend code s).1 = .ok) :
    (styleAppend code s).2 = { s with result := s.result ++ [code], alloc := s.alloc.tail } := by
  unfold styleAppend at h ⊢
  by_cases hf : s.alloc.headD false = true
  · rw [if_pos hf] at h
    cases h
  · rw [if_neg hf]

/-- A guarded step that ends well passed its guard. -/
theorem guardError_ok {step : ParseM CssError} {onError : ParseM Unit} {rest : ParseM CssError}
    (h : (guardError step onError rest s).1 = .ok) :
    (step s).1 = .ok ∧ guardError step onError rest s = rest (step s).2 := by
  unfold guardError at h ⊢
  split_ifs at h ⊢ with hstep
  · exact ⟨hstep, rfl⟩
  · exact absurd h hstep

theorem styleVappend2_ok {a b : Int} (h : (styleVappend2 a b s).1 = .ok) :
    (styleVappend2 a b s).2.result = s.result ++ [a, b] ∧ (styleVappend2 a b s).2.ctx = s.ctx := by
  obtain ⟨ha, e⟩ := guardError_ok h
  unfold styleVappend2 at h ⊢
  rw [e] at h ⊢
  rw [styleAppend_ok h, styleAppend_ok ha]
  simp

end Frame

/-! ### Restoring `*ctx` on failure -/

/-- Whenever `m` fails it leaves `*ctx` at `orig`: the post-condition "if the
input is invalid, then `*ctx` remains unchanged" of a parser step. -/
def RestoresOnError (orig : ℕ) (m : ParseM CssError) : Prop :=
  ∀ s, (m s).1 ≠ .ok → (m s).2.ctx = orig

theorem restoresOnError_pure_ok (orig : ℕ) : RestoresOnError orig (pure .ok) :=
  fun _ h => absurd rfl h

/-- A step guarded by `*ctx = orig_ctx` restores on its own failure. -/
theorem restoresOnError_guardError {orig : ℕ} {rest : ParseM CssError}
    (hrest : RestoresOnError orig rest) (step : ParseM CssError) :
    RestoresOnError orig (guardError step (setCtx orig) rest) := by
  intro s h
  unfold guardError at h ⊢
  split_ifs at h ⊢
  · exact hrest _ h
  · rfl

end Css
end Neosurf
