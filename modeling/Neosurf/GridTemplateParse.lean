import Neosurf.CssUnitSpecifier

/-!
# Parsing `grid-template-rows`

`css__parse_grid_template_rows` (`parse/properties/grid_template_rows.c`)
accepts a CSS-wide keyword, `none`, a lone `auto`, or up to
`MAX_GRID_TRACKS` tracks read by `css__parse_unit_specifier`, and emits
`[OPV GRID_TEMPLATE_SET][n][v1][u1]...[vn][un]`.

The loop's own `auto` branch peeks at the token where the failed specifier
left `*ctx`, which is the whitespace before the keyword: an `auto` track is
accepted only as the whole value or glued to the previous track.
-/

namespace Neosurf
namespace Css

/-- `MAX_GRID_TRACKS`. -/
def maxGridTracks : ℕ := 32

/-- The `auto` track, `1fr` with `INTTOFIX(1)`. -/
def autoTrack : Int × ℕ := (1024, unitFr)

/-- The `while (num_tracks < MAX_GRID_TRACKS)` loop, with `fuel` iterations
left: the final `*ctx` and the tracks read, in order. -/
def gridTrackLoop (c : CssLanguage) (vector : List CssToken) :
    ℕ → ℕ → List (Int × ℕ) → ℕ × List (Int × ℕ)
  | 0, ctx, tracks => (ctx, tracks)
  | fuel + 1, ctx, tracks =>
      match vector[ctx]? with
      | none => (ctx, tracks)
      | some token =>
          match cssParseUnitSpecifier c vector ctx unitPx with
          | some (next, length, unit) => gridTrackLoop c vector fuel next (tracks ++ [(length, unit)])
          | none =>
              if isKeyword token "auto" then
                gridTrackLoop c vector fuel (ctx + 1) (tracks ++ [autoTrack])
              else (ctx, tracks)

/-- The words `emit_tracks` appends. -/
def gridTemplateWords (opcode : ℕ) (tracks : List (Int × ℕ)) : List Int :=
  buildOPV opcode 0 gridTemplateSet :: (tracks.length : Int) ::
    tracks.flatMap fun track => [track.1, (track.2 : Int)]

/-- The per-track appends of `emit_tracks`. -/
def emitTrackWords (orig : ℕ) : List (Int × ℕ) → ParseM CssError
  | [] => pure .ok
  | track :: rest =>
      guardError (styleAppend track.1) (setCtx orig) <|
      guardError (styleAppend track.2) (setCtx orig) <|
      emitTrackWords orig rest

/-- `emit_tracks:` of `css__parse_grid_template_rows`. -/
def emitTracks (orig : ℕ) (tracks : List (Int × ℕ)) : ParseM CssError :=
  guardError (styleAppendOPV cssPropGridTemplateRows 0 gridTemplateSet) (setCtx orig) <|
  guardError (styleAppend tracks.length) (setCtx orig) <|
  emitTrackWords orig tracks

/-- The keyword branch of `css__parse_grid_template_rows`: the helper it
returns from for an `IDENT` keyword, run with `*ctx` past the keyword. -/
def gridTemplateRowsKeyword (orig : ℕ) (token : CssToken) : Option (ParseM CssError) :=
  if token.type ≠ .ident then none
  else if caselessIsEqual token.idata "inherit" then
    some (styleFlagValue .inherit cssPropGridTemplateRows)
  else if caselessIsEqual token.idata "initial" then
    some (styleAppendOPV cssPropGridTemplateRows 0 gridTemplateNone)
  else if caselessIsEqual token.idata "revert" then
    some (styleFlagValue .revert cssPropGridTemplateRows)
  else if caselessIsEqual token.idata "unset" then
    some (styleAppendOPV cssPropGridTemplateRows FlagValue.unset.code 0)
  else if caselessIsEqual token.idata "none" then
    some (styleAppendOPV cssPropGridTemplateRows 0 gridTemplateNone)
  else if caselessIsEqual token.idata "auto" then some (emitTracks orig [autoTrack])
  else none

/-- `css__parse_grid_template_rows`. -/
def cssParseGridTemplateRows (c : CssLanguage) (vector : List CssToken) : ParseM CssError :=
  fun s =>
    match vector[s.ctx]? with
    | none => (.invalid, s)
    | some token =>
        match gridTemplateRowsKeyword s.ctx token with
        | some keyword => keyword { s with ctx := s.ctx + 1 }
        | none =>
            let loop := gridTrackLoop c vector maxGridTracks s.ctx []
            if loop.2 = [] then (.invalid, s)
            else emitTracks s.ctx loop.2 { s with ctx := loop.1 }

/-! ### The track loop -/

section Loop

variable {c : CssLanguage} {vector : List CssToken}

/-- The loop adds at most one track per iteration and never drops one. -/
theorem gridTrackLoop_tracks (fuel ctx : ℕ) (tracks : List (Int × ℕ)) :
    ∃ added, (gridTrackLoop c vector fuel ctx tracks).2 = tracks ++ added ∧
      added.length ≤ fuel := by
  induction fuel generalizing ctx tracks with
  | zero => exact ⟨[], by simp [gridTrackLoop], le_refl _⟩
  | succ fuel ih =>
      unfold gridTrackLoop
      split
      · exact ⟨[], by simp, Nat.zero_le _⟩
      · split
        · next n l u _ =>
          obtain ⟨added, h, hlen⟩ := ih n (tracks ++ [(l, u)])
          exact ⟨(l, u) :: added, by simp [h], by simp; omega⟩
        · split
          · obtain ⟨added, h, hlen⟩ := ih (ctx + 1) (tracks ++ [autoTrack])
            exact ⟨autoTrack :: added, by simp [h], by simp; omega⟩
          · exact ⟨[], by simp, Nat.zero_le _⟩

/-- At most `MAX_GRID_TRACKS` tracks come out of the loop. -/
theorem gridTrackLoop_length_le (ctx : ℕ) :
    (gridTrackLoop c vector maxGridTracks ctx []).2.length ≤ maxGridTracks := by
  obtain ⟨added, h, hlen⟩ := @gridTrackLoop_tracks c vector maxGridTracks ctx []
  simpa [h] using hlen

end Loop

/-! ### What is emitted -/

/-- What a successful `css__parse_grid_template_rows` leaves in `result`: a
CSS-wide flag value, `GRID_TEMPLATE_NONE`, or one to `MAX_GRID_TRACKS`
tracks. -/
inductive GridTemplateValue
  | flag (flag : FlagValue) (hflag : flag ≠ .none)
  | none
  | tracks (tracks : List (Int × ℕ)) (hne : tracks ≠ []) (hlen : tracks.length ≤ maxGridTracks)

/-- The OPV of a `grid-template-rows` value. -/
def GridTemplateValue.opv : GridTemplateValue → Int
  | .flag value _ => buildOPV cssPropGridTemplateRows (value.code <<< 1) 0
  | .none => buildOPV cssPropGridTemplateRows 0 gridTemplateNone
  | .tracks _ _ _ => buildOPV cssPropGridTemplateRows 0 gridTemplateSet

/-- The operand words after the OPV: the count and each track's two words. -/
def GridTemplateValue.operands : GridTemplateValue → List Int
  | .tracks ts _ _ => (ts.length : Int) :: ts.flatMap fun t => [t.1, (t.2 : Int)]
  | _ => []

section Emit

variable {s : ParseState}

/-- Successful track appends added each track's value and unit words. -/
theorem emitTrackWords_ok {orig : ℕ} {tracks : List (Int × ℕ)}
    (h : (emitTrackWords orig tracks s).1 = .ok) :
    (emitTrackWords orig tracks s).2.result =
      s.result ++ tracks.flatMap fun t => [t.1, (t.2 : Int)] := by
  induction tracks generalizing s with
  | nil => simp [emitTrackWords]
  | cons track rest ih =>
      rw [emitTrackWords] at h ⊢
      obtain ⟨h1, e1⟩ := guardError_ok h
      rw [e1] at h ⊢
      obtain ⟨h2, e2⟩ := guardError_ok h
      rw [e2] at h ⊢
      rw [ih h, styleAppend_ok h2, styleAppend_ok h1]
      simp

/-- A successful `emit_tracks` appended the words of its tracks. -/
theorem emitTracks_ok {orig : ℕ} {tracks : List (Int × ℕ)} (h : (emitTracks orig tracks s).1 = .ok) :
    (emitTracks orig tracks s).2.result = s.result ++ gridTemplateWords cssPropGridTemplateRows tracks := by
  rw [emitTracks] at h ⊢
  obtain ⟨h1, e1⟩ := guardError_ok h
  rw [e1] at h ⊢
  obtain ⟨h2, e2⟩ := guardError_ok h
  rw [e2] at h ⊢
  rw [emitTrackWords_ok h, styleAppend_ok h2, styleAppendOPV, styleAppend_ok h1]
  simp [gridTemplateWords]

/-- The keyword branch emits one value.  `unset` is appended with
`FLAG_VALUE_UNSET` as the flags byte, where the flag value sits one bit
higher, so it is stored as `initial`; `initial` itself is stored as
`GRID_TEMPLATE_NONE`. -/
theorem gridTemplateRowsKeyword_ok {orig : ℕ} {token : CssToken} {keyword : ParseM CssError}
    (hk : gridTemplateRowsKeyword orig token = some keyword) (h : (keyword s).1 = .ok) :
    ∃ v : GridTemplateValue, (keyword s).2.result = s.result ++ v.opv :: v.operands := by
  unfold gridTemplateRowsKeyword at hk
  split_ifs at hk <;> cases hk
  · exact ⟨.flag .inherit (by decide), by rw [styleFlagValue, styleAppendOPV, styleAppend_ok h]; rfl⟩
  · exact ⟨.none, by rw [styleAppendOPV, styleAppend_ok h]; rfl⟩
  · exact ⟨.flag .revert (by decide), by rw [styleFlagValue, styleAppendOPV, styleAppend_ok h]; rfl⟩
  · exact ⟨.flag .initial (by decide), by rw [styleAppendOPV, styleAppend_ok h]; rfl⟩
  · exact ⟨.none, by rw [styleAppendOPV, styleAppend_ok h]; rfl⟩
  · exact ⟨.tracks [autoTrack] (List.cons_ne_nil _ _) (by decide), emitTracks_ok h⟩

/-- A successful parse emitted one `grid-template-rows` value. -/
theorem cssParseGridTemplateRows_ok {c : CssLanguage} {vector : List CssToken}
    (h : (cssParseGridTemplateRows c vector s).1 = .ok) :
    ∃ v : GridTemplateValue,
      (cssParseGridTemplateRows c vector s).2.result = s.result ++ v.opv :: v.operands := by
  rcases htok : vector[s.ctx]? with _ | token
  · simp only [cssParseGridTemplateRows, htok] at h
    cases h
  rcases hk : gridTemplateRowsKeyword s.ctx token with _ | keyword
  · simp only [cssParseGridTemplateRows, htok, hk] at h ⊢
    by_cases hnil : (gridTrackLoop c vector maxGridTracks s.ctx []).2 = []
    · rw [if_pos hnil] at h
      cases h
    rw [if_neg hnil] at h ⊢
    exact ⟨.tracks _ hnil (gridTrackLoop_length_le s.ctx), emitTracks_ok h⟩
  · simp only [cssParseGridTemplateRows, htok, hk] at h ⊢
    exact gridTemplateRowsKeyword_ok hk h

end Emit

/-! ### The failing input of the track grammar

`10px auto` is a two-track list, but the parser stops at the whitespace
after `10px`, so the declaration parser sees `auto` as trailing junk. -/

/-- The tokens of `10px auto`. -/
def tenPxAuto : List CssToken :=
  [⟨.dimension, "10px"⟩, ⟨.s, " "⟩, ⟨.ident, "auto"⟩]

theorem cssParseGridTemplateRows_tenPxAuto :
    cssParseGridTemplateRows standardLanguage tenPxAuto ⟨0, [], []⟩ =
        (.ok, ⟨1, gridTemplateWords cssPropGridTemplateRows [(10240, unitPx)], []⟩) ∧
      atEndOfValue tenPxAuto 1 = false := by
  decide

end Css
end Neosurf
