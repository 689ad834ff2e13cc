import Neosurf.GridTemplateParse

/-!
# Parsing `gap` and `grid-area`

`parse/properties/gap.c` holds two shorthand parsers.  `css__parse_gap` reads
a CSS-wide keyword, `normal`, or one or two values through
`css__parse_unit_specifier` that are not angles, times or frequencies and not
negative, and emits `row-gap` and `column-gap`; a lone value serves both.  A
second value that does not qualify is left unread, and `normal` is taken only
as the whole value: the parser returns right after it.

`css__parse_grid_area` reads up to four grid lines separated by `/`, each
`auto` or a non-zero integer, and emits the four longhands in the order
row-start, column-start, row-end, column-end, missing lines as `auto`.

Both parsers are written as a reading half, a function of the token vector
and `*ctx`, and the appends; every append restores `*ctx` on failure.
-/

namespace Neosurf
namespace Css

/-! ### `css__parse_gap` -/

/-- What `css__parse_gap` emits: `flag_value`, `normal`, or the two
`(length, unit)` pairs of `length[]` and `unit[]`. -/
inductive GapValue
  | flag (value : FlagValue)
  | normal
  | lengths (row column : Int × ℕ)
  deriving DecidableEq, Repr

/-- The words emitted for a gap value. -/
def GapValue.words : GapValue → List Int
  | .flag value =>
      [buildOPV cssPropRowGap (value.code <<< 1) 0, buildOPV cssPropColumnGap (value.code <<< 1) 0]
  | .normal => [buildOPV cssPropRowGap 0 rowGapNormal, buildOPV cssPropColumnGap 0 columnGapNormal]
  | .lengths row column =>
      [buildOPV cssPropRowGap 0 rowGapSet, row.1, row.2,
        buildOPV cssPropColumnGap 0 columnGapSet, column.1, column.2]

/-- The optional second value, read into `temp_ctx`: kept when the specifier
accepts it with a unit that is not an angle, time or frequency and a length
that is not negative. -/
def gapSecond (c : CssLanguage) (vector : List CssToken) (ctx : ℕ) : Option (ℕ × Int × ℕ) :=
  match vector[ctx]? with
  | some token =>
      if token.type ≠ .eof then
        (cssParseUnitSpecifier c vector ctx unitPx).filter fun r =>
          !angleTimeOrFreq r.2.2 && decide (0 ≤ r.2.1)
      else none
  | none => none

/-- The reading half of `css__parse_gap`: the final `*ctx` and the value, or
`none` where it restores `*ctx` and returns `CSS_INVALID`. -/
def gapArguments (c : CssLanguage) (vector : List CssToken) (ctx : ℕ) : Option (ℕ × GapValue) :=
  match vector[ctx]? with
  | none => none
  | some token =>
      if getCssFlagValue token ≠ .none then some (ctx + 1, .flag (getCssFlagValue token))
      else if isKeyword token "normal" then some (ctx + 1, .normal)
      else
        match cssParseUnitSpecifier c vector ctx unitPx with
        | none => none
        | some (next, length, unit) =>
            if angleTimeOrFreq unit then none
            else if length < 0 then none
            else
              match gapSecond c vector (consumeWhitespace vector next) with
              | some (next2, length2, unit2) => some (next2, .lengths (length, unit) (length2, unit2))
              | none => some (consumeWhitespace vector next, .lengths (length, unit) (length, unit))

/-- The appends of `css__parse_gap`, each restoring `*ctx` on failure. -/
def emitGapValue (orig : ℕ) : GapValue → ParseM CssError
  | .flag value =>
      guardError (styleFlagValue value cssPropRowGap) (setCtx orig) <|
      guardError (styleFlagValue value cssPropColumnGap) (setCtx orig) (pure .ok)
  | .normal =>
      guardError (styleAppendOPV cssPropRowGap 0 rowGapNormal) (setCtx orig) <|
      guardError (styleAppendOPV cssPropColumnGap 0 columnGapNormal) (setCtx orig) (pure .ok)
  | .lengths row column =>
      guardError (styleAppendOPV cssPropRowGap 0 rowGapSet) (setCtx orig) <|
      guardError (styleAppend row.1) (setCtx orig) <|
      guardError (styleAppend row.2) (setCtx orig) <|
      guardError (styleAppendOPV cssPropColumnGap 0 columnGapSet) (setCtx orig) <|
      guardError (styleAppend column.1) (setCtx orig) <|
      guardError (styleAppend column.2) (setCtx orig) (pure .ok)

/-- `css__parse_gap`. -/
def cssParseGap (c : CssLanguage) (vector : List CssToken) : ParseM CssError := fun s =>
  match gapArguments c vector s.ctx with
  | none => (.invalid, s)
  | some (next, value) => emitGapValue s.ctx value { s with ctx := next }

section Gap

variable {c : CssLanguage} {vector : List CssToken} {s : ParseState}

theorem emitGapValue_of_alloc_nil (orig : ℕ) (value : GapValue) (h : s.alloc = []) :
    emitGapValue orig value s = (.ok, { s with result := s.result ++ value.words }) := by
  cases value <;>
    simp [emitGapValue, guardError, styleFlagValue, styleAppendOPV, styleAppend, h, GapValue.words]

theorem restoresOnError_emitGapValue (orig : ℕ) (value : GapValue) :
    RestoresOnError orig (emitGapValue orig value) := by
  cases value <;> simp only [emitGapValue] <;>
    repeat first
      | exact restoresOnError_pure_ok orig
      | apply restoresOnError_guardError

/-- A failed `css__parse_gap` leaves `*ctx` where it found it. -/
theorem cssParseGap_restores (h : (cssParseGap c vector s).1 ≠ .ok) :
    (cssParseGap c vector s).2.ctx = s.ctx := by
  unfold cssParseGap at h ⊢
  split
  · rfl
  · next next value _ =>
      rw [‹gapArguments c vector s.ctx = some (next, value)›] at h
      exact restoresOnError_emitGapValue s.ctx value _ h

/-- The second value is kept exactly when the specifier reads one that is not
an angle, time or frequency and not negative. -/
theorem gapSecond_eq_some {ctx next : ℕ} {length : Int} {unit : ℕ} :
    gapSecond c vector ctx = some (next, length, unit) ↔
      cssParseUnitSpecifier c vector ctx unitPx = some (next, length, unit) ∧
        angleTimeOrFreq unit = false ∧ 0 ≤ length := by
  constructor
  · intro h
    unfold gapSecond at h
    split at h
    · split_ifs at h
      obtain ⟨hspec, hok⟩ := Option.filter_eq_some.mp h
      simp only [Bool.and_eq_true, Bool.not_eq_true', decide_eq_true_eq] at hok
      exact ⟨hspec, hok⟩
    · cases h
  · rintro ⟨hspec, hangle, hlen⟩
    obtain ⟨token, htok, -, heof⟩ := cssParseUnitSpecifier_some_at hspec
    simp [gapSecond, htok, heof, hspec, hangle, hlen]

end Gap

/-! ### What `css__parse_gap` accepts

`normal` stands only alone, and a value is whatever `css__parse_unit_specifier`
reads with a unit that is not an angle, time or frequency and a value that is
not negative: lengths and percentages, but also `fr` and resolution units. -/

/-- A value `css__parse_gap` takes: its unit is not an angle, time or frequency, and it is
not negative. -/
def IsGapLength (length : Int) (unit : ℕ) : Prop :=
  angleTimeOrFreq unit = false ∧ 0 ≤ length

/-- The values `css__parse_gap` accepts from `ctx` to the end of the value: a
CSS-wide keyword, a lone `normal`, or one or two values it takes. -/
inductive GapAccepts (c : CssLanguage) (vector : List CssToken) (ctx : ℕ) : GapValue → Prop
  | flag {token : CssToken} : vector[ctx]? = some token → getCssFlagValue token ≠ .none →
      atEndOfValue vector (ctx + 1) → GapAccepts c vector ctx (.flag (getCssFlagValue token))
  | normal {token : CssToken} : vector[ctx]? = some token → isKeyword token "normal" →
      atEndOfValue vector (ctx + 1) → GapAccepts c vector ctx .normal
  | one {next : ℕ} {length : Int} {unit : ℕ} :
      cssParseUnitSpecifier c vector ctx unitPx = some (next, length, unit) →
      IsGapLength length unit → atEndOfValue vector next →
      GapAccepts c vector ctx (.lengths (length, unit) (length, unit))
  | two {next next2 : ℕ} {length length2 : Int} {unit unit2 : ℕ} :
      cssParseUnitSpecifier c vector ctx unitPx = some (next, length, unit) →
      IsGapLength length unit →
      cssParseUnitSpecifier c vector (consumeWhitespace vector next) unitPx =
        some (next2, length2, unit2) →
      IsGapLength length2 unit2 → atEndOfValue vector next2 →
      GapAccepts c vector ctx (.lengths (length, unit) (length2, unit2))

section Grammar

variable {c : CssLanguage} {vector : List CssToken} {ctx : ℕ}

/-- The reading half ends at the end of the value exactly on the accepted
values. -/
theorem gapArguments_iff_gapAccepts (value : GapValue) :
    (∃ next, gapArguments c vector ctx = some (next, value) ∧ atEndOfValue vector next) ↔
      GapAccepts c vector ctx value := by
  constructor
  · rintro ⟨next, h, hend⟩
    unfold gapArguments at h
    split at h
    · cases h
    rename_i token htok
    split_ifs at h with hflag hnormal
    · cases h
      exact .flag htok hflag hend
    · cases h
      exact .normal htok hnormal hend
    split at h
    · cases h
    rename_i next1 length unit hspec
    split_ifs at h with hangle hneg
    have hlen : IsGapLength length unit := ⟨by simpa using hangle, by omega⟩
    split at h
    · rename_i next2 length2 unit2 hsecond
      cases h
      obtain ⟨hspec2, hangle2, hlen2⟩ := gapSecond_eq_some.mp hsecond
      exact .two hspec hlen hspec2 ⟨hangle2, hlen2⟩ hend
    · cases h
      exact .one hspec hlen (by rwa [atEndOfValue_consumeWhitespace] at hend)
  · intro h
    cases h with
    | flag htok hflag hend => exact ⟨_, by simp [gapArguments, htok, hflag], hend⟩
    | normal htok hnormal hend =>
        exact ⟨_, by simp [gapArguments, htok, hnormal, getCssFlagValue_of_isKeyword_normal hnormal],
          hend⟩
    | @one next length unit hspec hlen hend =>
        obtain ⟨token, htok, hident, -⟩ := cssParseUnitSpecifier_some_at hspec
        have hnone : gapSecond c vector (consumeWhitespace vector next) = none := by
          rw [gapSecond, atEndOfValue_iff.mp hend]
        have hneg : ¬length < 0 := by have := hlen.2; omega
        refine ⟨_, ?_, by rwa [atEndOfValue_consumeWhitespace]⟩
        simp [gapArguments, htok, getCssFlagValue_of_ne_ident hident, isKeyword_of_ne_ident hident,
          hspec, hlen.1, hneg, hnone]
    | @two next next2 length length2 unit unit2 hspec hlen hspec2 hlen2 hend =>
        obtain ⟨token, htok, hident, -⟩ := cssParseUnitSpecifier_some_at hspec
        have hsome := gapSecond_eq_some.mpr ⟨hspec2, hlen2⟩
        have hneg : ¬length < 0 := by have := hlen.2; omega
        refine ⟨_, ?_, hend⟩
        simp [gapArguments, htok, getCssFlagValue_of_ne_ident hident, isKeyword_of_ne_ident hident,
          hspec, hlen.1, hneg, hsome]

/-- With allocation succeeding, `css__parse_gap` returns `CSS_OK` at the end
of the value exactly on the accepted values, and emits them. -/
theorem cssParseGap_accepts_iff (c : CssLanguage) (vector : List CssToken) (s : ParseState)
    (halloc : s.alloc = []) :
    ((cssParseGap c vector s).1 = .ok ∧ atEndOfValue vector (cssParseGap c vector s).2.ctx) ↔
      ∃ value, GapAccepts c vector s.ctx value ∧
        (cssParseGap c vector s).2.result = s.result ++ value.words := by
  rcases h : gapArguments c vector s.ctx with _ | ⟨next, value⟩
  · simp only [cssParseGap, h]
    constructor
    · rintro ⟨h1, -⟩
      cases h1
    · rintro ⟨value, hacc, -⟩
      obtain ⟨next, h', -⟩ := (gapArguments_iff_gapAccepts value).mpr hacc
      rw [h] at h'
      cases h'
  · have hemit : emitGapValue s.ctx value { s with ctx := next } =
        (.ok, { s with ctx := next, result := s.result ++ value.words }) :=
      emitGapValue_of_alloc_nil _ _ halloc
    simp only [cssParseGap, h, hemit, true_and]
    constructor
    · intro hend
      exact ⟨value, (gapArguments_iff_gapAccepts value).mp ⟨next, h, hend⟩, rfl⟩
    · rintro ⟨value', hacc, -⟩
      obtain ⟨next', h', hend⟩ := (gapArguments_iff_gapAccepts value').mpr hacc
      rw [h, Option.some.injEq, Prod.mk.injEq] at h'
      obtain ⟨rfl, rfl⟩ := h'
      exact hend

/-- The tokens of `10px 20px`. -/
def tenPxTwentyPx : List CssToken := [⟨.dimension, "10px"⟩, ⟨.s, " "⟩, ⟨.dimension, "20px"⟩]

theorem cssParseGap_accepts_iff_tenPxTwentyPx :
    ([] : List Bool) = [] ∧
      (((cssParseGap standardLanguage tenPxTwentyPx ⟨0, [], []⟩).1 = .ok ∧
        atEndOfValue tenPxTwentyPx (cssParseGap standardLanguage tenPxTwentyPx ⟨0, [], []⟩).2.ctx) ↔
      ∃ value, GapAccepts standardLanguage tenPxTwentyPx 0 value ∧
        (cssParseGap standardLanguage tenPxTwentyPx ⟨0, [], []⟩).2.result = [] ++ value.words) :=
  ⟨rfl, cssParseGap_accepts_iff standardLanguage tenPxTwentyPx ⟨0, [], []⟩ rfl⟩

end Grammar

/-! ### A flex fraction as a gap

The filter of `css__parse_gap` drops angles, times and frequencies only, so
`1fr`, neither a length nor a percentage, is taken for both gaps. -/

/-- The tokens of `1fr`. -/
def oneFr : List CssToken := [⟨.dimension, "1fr"⟩]

theorem cssParseGap_oneFr :
    cssParseGap standardLanguage oneFr ⟨0, [], []⟩ =
        (.ok, ⟨1, (GapValue.lengths (1024, unitFr) (1024, unitFr)).words, []⟩) ∧
      atEndOfValue oneFr 1 = true ∧ unitFr &&& (unitLength ||| unitPct) = 0 := by
  decide

/-! ### `css__parse_grid_area` -/

/-- `parse_grid_line_value`: the new `*ctx`, the value and the integer, or
`none` for `CSS_INVALID` with `*ctx` untouched. -/
def parseGridLineValue (c : CssLanguage) (vector : List CssToken) (ctx : ℕ) :
    Option (ℕ × ℕ × Int) :=
  match vector[ctx]? with
  | none => none
  | some token =>
      if isKeyword token "auto" then some (ctx + 1, cssGridLineAuto, 0)
      else if token.type = .number then
        if (c.numberFromLwcString token.idata true).2 ≠ token.idata.length then none
        else if (c.numberFromLwcString token.idata true).1 = 0 then none
        else some (ctx + 1, cssGridLineSet, (c.numberFromLwcString token.idata true).1)
      else none

/-- The `for (i = 0; i < 4; i++)` loop with `n` iterations left: the final
`*ctx` and the lines read.  A `/` is consumed before the next line is tried. -/
def gridAreaLoop (c : CssLanguage) (vector : List CssToken) :
    ℕ → ℕ → List (ℕ × Int) → ℕ × List (ℕ × Int)
  | 0, ctx, lines => (ctx, lines)
  | n + 1, ctx, lines =>
      match parseGridLineValue c vector ctx with
      | none => (ctx, lines)
      | some (next, value, integer) =>
          let ctx := consumeWhitespace vector next
          match vector[ctx]? with
          | some token =>
              if tokenIsChar token '/' then
                gridAreaLoop c vector n (consumeWhitespace vector (ctx + 1)) (lines ++ [(value, integer)])
              else (ctx, lines ++ [(value, integer)])
          | none => (ctx, lines ++ [(value, integer)])

/-- `props[]`: row-start, column-start, row-end, column-end. -/
def gridAreaProps : List ℕ :=
  [cssPropGridRowStart, cssPropGridColumnStart, cssPropGridRowEnd, cssPropGridColumnEnd]

/-- `values[]` and `integers[]`: the lines read, then `auto` up to four. -/
def gridAreaLines (lines : List (ℕ × Int)) : List (ℕ × Int) :=
  lines ++ List.replicate (4 - lines.length) (cssGridLineAuto, 0)

/-- The emission loop: each property's OPV, and the integer of a set line. -/
def emitGridLines (orig : ℕ) : List (ℕ × ℕ × Int) → ParseM CssError
  | [] => pure .ok
  | (prop, value, integer) :: rest =>
      guardError (styleAppendOPV prop 0 value) (setCtx orig) <|
        if value = cssGridLineSet then
          guardError (styleAppend integer) (setCtx orig) (emitGridLines orig rest)
        else emitGridLines orig rest

/-- The flag branch: the flag value for each of the four properties. -/
def emitGridAreaFlags (orig : ℕ) (flag : FlagValue) : List ℕ → ParseM CssError
  | [] => pure .ok
  | prop :: rest =>
      guardError (styleFlagValue flag prop) (setCtx orig) (emitGridAreaFlags orig flag rest)

/-- `css__parse_grid_area`. -/
def cssParseGridArea (c : CssLanguage) (vector : List CssToken) : ParseM CssError := fun s =>
  match vector[s.ctx]? with
  | none => (.invalid, s)
  | some token =>
      if getCssFlagValue token ≠ .none then
        emitGridAreaFlags s.ctx (getCssFlagValue token) gridAreaProps { s with ctx := s.ctx + 1 }
      else
        let loop := gridAreaLoop c vector 4 s.ctx []
        if loop.2 = [] then (.invalid, s)
        else emitGridLines s.ctx (gridAreaProps.zip (gridAreaLines loop.2)) { s with ctx := loop.1 }

section GridArea

variable {c : CssLanguage} {vector : List CssToken} {s : ParseState}

theorem restoresOnError_emitGridLines (orig : ℕ) :
    ∀ lines : List (ℕ × ℕ × Int), RestoresOnError orig (emitGridLines orig lines)
  | [] => restoresOnError_pure_ok orig
  | (_, value, _) :: rest => by
      have ih := restoresOnError_emitGridLines orig rest
      apply restoresOnError_guardError
      split
      · exact restoresOnError_guardError ih _
      · exact ih

theorem restoresOnError_emitGridAreaFlags (orig : ℕ) (flag : FlagValue) :
    ∀ props : List ℕ, RestoresOnError orig (emitGridAreaFlags orig flag props)
  | [] => restoresOnError_pure_ok orig
  | _ :: rest => restoresOnError_guardError (restoresOnError_emitGridAreaFlags orig flag rest) _

/-- A failed `css__parse_grid_area` leaves `*ctx` where it found it. -/
theorem cssParseGridArea_restores (h : (cssParseGridArea c vector s).1 ≠ .ok) :
    (cssParseGridArea c vector s).2.ctx = s.ctx := by
  unfold cssParseGridArea at h ⊢
  split
  · rfl
  · rename_i token htok
    simp only [htok] at h
    dsimp only at h ⊢
    split_ifs at h ⊢
    · exact restoresOnError_emitGridAreaFlags _ _ _ _ h
    · rfl
    · exact restoresOnError_emitGridLines _ _ _ h

end GridArea

/-! ### A `/` with no line after it

`1 /` is not a grid-area value, but the loop consumes the `/` before it finds
no line, and keeps what it has: the parser accepts the value with `*ctx` at
its end. -/

/-- The tokens of `1 /`. -/
def oneSlash : List CssToken := [⟨.number, "1"⟩, ⟨.s, " "⟩, ⟨.char, "/"⟩]

theorem cssParseGridArea_oneSlash :
    cssParseGridArea standardLanguage oneSlash ⟨0, [], []⟩ =
        (.ok, ⟨3, [buildOPV cssPropGridRowStart 0 cssGridLineSet, 1024,
          buildOPV cssPropGridColumnStart 0 cssGridLineAuto,
          buildOPV cssPropGridRowEnd 0 cssGridLineAuto,
          buildOPV cssPropGridColumnEnd 0 cssGridLineAuto], []⟩) ∧
      atEndOfValue oneSlash 3 := by
  decide

end Css
end Neosurf
