import Neosurf.BackgroundImageParse
import Neosurf.TransformParse

/-!
# Parsing `place-content`, and the parsers that move `*ctx` on failure

`css__parse_place_content` (`src/unnamed/part_003`) parses `align-content`
into a fresh style, then an optional `justify-content` into a second one from
a copy of `*ctx`, merges both into the result, and re-parses the first value
as `justify-content` when there was no second.  The two longhand parsers are
not under `src/`; the model takes them as parameters, each a function of the
starting `*ctx` giving its error, its final `*ctx` and the words it wrote.

The last section collects the parsers' failure paths: every parser except
three restores `*ctx` on failure, and those three do not on the paths shown.
-/

namespace Neosurf
namespace Css

/-- `guardError m (*ctx = orig_ctx) CSS_OK`: run `m` and restore `*ctx` if it
fails. -/
def restoreOnError (orig : ℕ) (m : ParseM CssError) : ParseM CssError :=
  guardError m (setCtx orig) (pure .ok)

/-- The merges at the end of `css__parse_place_content`: the align-content
style, then the justify-content style or, without one, a re-parse of the
first value as `justify-content` from `orig_ctx`. -/
def placeContentMerge (justifyContent : ℕ → CssError × ℕ × List Int) (orig : ℕ)
    (alignWords : List Int) (justify : Option (List Int)) : ParseM CssError :=
  guardError (mergeStyle alignWords) (setCtx orig) <|
    match justify with
    | some justifyWords => restoreOnError orig (mergeStyle justifyWords)
    | none => fun s =>
        if (allocate s).1 then
          if (justifyContent orig).1 = .ok then
            restoreOnError orig (mergeStyle (justifyContent orig).2.2) (allocate s).2
          else ((justifyContent orig).1, { (allocate s).2 with ctx := orig })
        else (.nomem, { (allocate s).2 with ctx := orig })

/-- `css__parse_place_content`, with `css__parse_align_content` and
`css__parse_justify_content` as parameters. -/
def cssParsePlaceContent (alignContent justifyContent : ℕ → CssError × ℕ × List Int)
    (vector : List CssToken) : ParseM CssError := fun s =>
  match vector[s.ctx]? with
  | none => (.invalid, s)
  | some _ =>
      if !(allocate s).1 then (.nomem, (allocate s).2)
      else if (alignContent s.ctx).1 ≠ .ok then
        ((alignContent s.ctx).1, { (allocate s).2 with ctx := s.ctx })
      else
        let ctx := consumeWhitespace vector (alignContent s.ctx).2.1
        let s1 := { (allocate s).2 with ctx := ctx }
        let hasSecond := match vector[ctx]? with
          | some token => token.type != .eof
          | none => false
        if hasSecond then
          if !(allocate s1).1 then (.nomem, (allocate s1).2)
          else if (justifyContent ctx).1 = .ok then
            placeContentMerge justifyContent s.ctx (alignContent s.ctx).2.2
              (some (justifyContent ctx).2.2) { (allocate s1).2 with ctx := (justifyContent ctx).2.1 }
          else placeContentMerge justifyContent s.ctx (alignContent s.ctx).2.2 none (allocate s1).2
        else placeContentMerge justifyContent s.ctx (alignContent s.ctx).2.2 none s1

/-- The tokens of `center start`. -/
def centerStart : List CssToken := [⟨.ident, "center"⟩, ⟨.s, " "⟩, ⟨.ident, "start"⟩]

/-- Modelled from the spec: `css__parse_align_content` and
`css__parse_justify_content` are not under `src/`; on `center start` they are
taken to read one keyword token and emit its OPV. -/
def contentKeyword (opcode : ℕ) (ctx : ℕ) : CssError × ℕ × List Int :=
  match centerStart[ctx]? with
  | some token => if token.type = .ident then (.ok, ctx + 1, [buildOPV opcode 0 0]) else (.invalid, ctx, [])
  | none => (.invalid, ctx, [])

/-! ### Failure paths that keep `*ctx` moved

The keyword returns of `css__parse_grid_template_rows` and
`css__parse_transform` hand back the helper's error after the keyword was
iterated past, and the second `css__stylesheet_style_create` of
`css__parse_place_content` returns after the first value was consumed.  The
sibling paths of the same functions restore `*ctx`; so do all the paths of
`css__parse_gap`, `css__parse_grid_area` and `css__parse_background_image`
(`cssParseGap_restores`, `cssParseGridArea_restores`,
`cssParseBackgroundImage_restores`). -/

/-- The tokens of `inherit`. -/
def inheritToken : List CssToken := [⟨.ident, "inherit"⟩]

/-- The tokens of `none`. -/
def noneToken : List CssToken := [⟨.ident, "none"⟩]

theorem cssParse_keyword_nomem_keeps_ctx :
    cssParseGridTemplateRows standardLanguage inheritToken ⟨0, [], [true]⟩ = (.nomem, ⟨1, [], []⟩) ∧
      cssParseTransform standardLanguage noneToken ⟨0, [], [true]⟩ = (.nomem, ⟨1, [], []⟩) ∧
      cssParsePlaceContent (contentKeyword cssPropAlignContent) (contentKeyword cssPropJustifyContent)
        centerStart ⟨0, [], [false, true]⟩ = (.nomem, ⟨2, [], []⟩) := by
  decide

end Css
end Neosurf
