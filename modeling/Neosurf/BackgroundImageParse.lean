import Neosurf.GapParse

/-!
# Parsing `background-image`

`css__parse_background_image` (`src/unnamed/part_002`) accepts a CSS-wide
keyword, `none`, a `url()` or a `linear-gradient()` / `radial-gradient()`
function.  A gradient is skipped token by token, a depth raised by every
function token and lowered by every `)`, up to the `)` that brings it back to
zero, and emitted as `none`; a `(` that opens no function is not counted.
Every failing return restores `*ctx`.

`c->sheet->resolve` and `css__stylesheet_string_add` are not under `src/`; the
model takes their composition as a parameter.
-/

namespace Neosurf
namespace Css

/-- The keyword branch: the helper run for an `IDENT`, `CSS_INVALID` for an
unknown one. -/
def backgroundImageKeyword (token : CssToken) : ParseM CssError :=
  if caselessIsEqual token.idata "inherit" then styleFlagValue .inherit cssPropBackgroundImage
  else if caselessIsEqual token.idata "none" then
    styleAppendOPV cssPropBackgroundImage 0 backgroundImageNone
  else if caselessIsEqual token.idata "initial" then styleFlagValue .initial cssPropBackgroundImage
  else if caselessIsEqual token.idata "revert" then styleFlagValue .revert cssPropBackgroundImage
  else if caselessIsEqual token.idata "unset" then styleFlagValue .unset cssPropBackgroundImage
  else pure .invalid

/-- The `while (depth > 0)` loop over the tokens after a gradient's function
token: how many it consumes up to the closing `)`, or `none` when the tokens
run out first. -/
def skipGradient : ℕ → List CssToken → Option ℕ
  | _, [] => none
  | depth, token :: rest =>
      let depth :=
        if token.type = .function then depth + 1
        else if token.type = .char ∧ token.idata.data = [')'] then depth - 1
        else depth
      if depth = 0 then some 1 else (skipGradient depth rest).map (· + 1)

/-- `linear-gradient` or `radial-gradient`. -/
def isGradient (token : CssToken) : Bool :=
  token.type = .function &&
    (caselessIsEqual token.idata "linear-gradient" || caselessIsEqual token.idata "radial-gradient")

/-- `css__parse_background_image`.  `resolveUri` is `c->sheet->resolve`
followed by `css__stylesheet_string_add`: the string number of the resolved
URI, or the error of the call that failed. -/
def cssParseBackgroundImage (resolveUri : String → Except CssError ℕ) (vector : List CssToken) :
    ParseM CssError := fun s =>
  match vector[s.ctx]? with
  | none => (.invalid, s)
  | some token =>
      if token.type = .ident then
        guardError (backgroundImageKeyword token) (setCtx s.ctx) (pure .ok) { s with ctx := s.ctx + 1 }
      else if token.type = .uri then
        match resolveUri token.idata with
        | .error error => (error, s)
        | .ok snumber =>
            (guardError (styleAppendOPV cssPropBackgroundImage 0 backgroundImageUri) (setCtx s.ctx) <|
              guardError (styleAppend snumber) (setCtx s.ctx) (pure .ok)) { s with ctx := s.ctx + 1 }
      else if isGradient token then
        match skipGradient 1 (vector.drop (s.ctx + 1)) with
        | none => (.invalid, s)
        | some consumed =>
            guardError (styleAppendOPV cssPropBackgroundImage 0 backgroundImageNone) (setCtx s.ctx)
              (pure .ok) { s with ctx := s.ctx + 1 + consumed }
      else (.invalid, s)

/-- A failed `css__parse_background_image` leaves `*ctx` where it found it. -/
theorem cssParseBackgroundImage_restores {resolveUri : String → Except CssError ℕ}
    {vector : List CssToken} {s : ParseState}
    (h : (cssParseBackgroundImage resolveUri vector s).1 ≠ .ok) :
    (cssParseBackgroundImage resolveUri vector s).2.ctx = s.ctx := by
  have hkeep := restoresOnError_pure_ok s.ctx
  unfold cssParseBackgroundImage at h ⊢
  split
  · rfl
  · rename_i token htok
    simp only [htok] at h
    split_ifs at h ⊢
    · exact restoresOnError_guardError hkeep _ _ h
    · rcases hr : resolveUri token.idata with error | snumber <;> simp only [hr] at h ⊢
      exact restoresOnError_guardError (restoresOnError_guardError hkeep _) _ _ h
    · rcases hg : skipGradient 1 (vector.drop (s.ctx + 1)) with _ | consumed <;>
        simp only [hg] at h ⊢
      exact restoresOnError_guardError hkeep _ _ h
    · rfl

/-- Whatever the tokens and whichever allocations fail, a failing `css__parse_gap`,
`css__parse_grid_area` or `css__parse_background_image` leaves `*ctx` where it found it. -/
theorem cssParse_failure_restores_ctx :
    (∀ c vector (s : ParseState), (cssParseGap c vector s).1 ≠ .ok →
      (cssParseGap c vector s).2.ctx = s.ctx) ∧
    (∀ c vector (s : ParseState), (cssParseGridArea c vector s).1 ≠ .ok →
      (cssParseGridArea c vector s).2.ctx = s.ctx) ∧
    (∀ resolveUri vector (s : ParseState), (cssParseBackgroundImage resolveUri vector s).1 ≠ .ok →
      (cssParseBackgroundImage resolveUri vector s).2.ctx = s.ctx) :=
  ⟨fun _ _ _ => cssParseGap_restores, fun _ _ _ => cssParseGridArea_restores,
    fun _ _ _ => cssParseBackgroundImage_restores⟩

/-! ### Where the skipping loop stops

The loop's depth starts at one for the gradient's function token; every
function token raises it by one, every `)` lowers it by one, and every other
token, a `(` among them, leaves it.  The loop stops after the first token that
brings it back to zero. -/

/-- How a token moves the depth of the skipping loop. -/
def depthDelta (token : CssToken) : Int :=
  if token.type = .function then 1
  else if token.type = .char ∧ token.idata.data = [')'] then -1
  else 0

/-- The depth after the first `k` tokens, starting from depth `d`. -/
def depthAfter (d : Int) : List CssToken → ℕ → Int
  | _, 0 => d
  | [], _ + 1 => d
  | token :: rest, k + 1 => depthAfter (d + depthDelta token) rest k

/-- The `k`-th token brings the depth from `d` back to zero: the depth is
positive after every shorter non-empty prefix and zero after `k` tokens. -/
def ClosesAt (d : Int) (tokens : List CssToken) (k : ℕ) : Prop :=
  0 < k ∧ k ≤ tokens.length ∧ depthAfter d tokens k = 0 ∧
    ∀ j, 0 < j → j < k → 0 < depthAfter d tokens j

theorem depthAfter_cons_succ (d : Int) (token : CssToken) (rest : List CssToken) (j : ℕ) :
    depthAfter d (token :: rest) (j + 1) = depthAfter (d + depthDelta token) rest j := rfl

theorem closesAt_cons_succ_iff (d : Int) (token : CssToken) (rest : List CssToken) (k : ℕ) :
    ClosesAt d (token :: rest) (k + 1) ↔
      (k = 0 ∧ d + depthDelta token = 0) ∨
        (0 < d + depthDelta token ∧ ClosesAt (d + depthDelta token) rest k) := by
  have hone : depthAfter d (token :: rest) 1 = d + depthDelta token := by
    simp [depthAfter]
  simp only [ClosesAt, depthAfter_cons_succ, List.length_cons]
  constructor
  · rintro ⟨-, hlen, hzero, hpos⟩
    rcases Nat.eq_zero_or_pos k with rfl | hk
    · exact .inl ⟨rfl, by simpa [depthAfter] using hzero⟩
    · refine .inr ⟨hone ▸ hpos 1 (by omega) (by omega), hk, by omega, hzero, fun j hj hjk => ?_⟩
      simpa [depthAfter_cons_succ] using hpos (j + 1) (by omega) (by omega)
  · rintro (⟨rfl, hzero⟩ | ⟨hdepth, hk, hlen, hzero, hpos⟩)
    · exact ⟨by omega, by omega, by simpa [depthAfter] using hzero, fun j hj hjk => by omega⟩
    · refine ⟨by omega, by omega, hzero, fun j hj hjk => ?_⟩
      obtain ⟨j, rfl⟩ : ∃ i, j = i + 1 := ⟨j - 1, by omega⟩
      rcases Nat.eq_zero_or_pos j with rfl | hj'
      · rwa [hone]
      · rw [depthAfter_cons_succ]
        exact hpos j hj' (by omega)

/-- The skipping loop stops exactly at the `)` that brings the depth back to zero. -/
theorem skipGradient_eq_some_iff {tokens : List CssToken} {d k : ℕ} (hd : 0 < d) :
    skipGradient d tokens = some k ↔ ClosesAt d tokens k := by
  induction tokens generalizing d k with
  | nil =>
      simp only [skipGradient, ClosesAt, List.length_nil, reduceCtorEq, false_iff]
      omega
  | cons token rest ih =>
      obtain ⟨d', hd', hstep⟩ : ∃ d' : ℕ, (d' : Int) = d + depthDelta token ∧
          skipGradient d (token :: rest) =
            if d' = 0 then some 1 else (skipGradient d' rest).map (· + 1) := by
        refine ⟨_, ?_, rfl⟩
        unfold depthDelta
        split_ifs <;> omega
      rw [hstep]
      rcases k with _ | k
      · simp only [ClosesAt, lt_irrefl, false_and, iff_false]
        split_ifs <;> simp
      rw [closesAt_cons_succ_iff, ← hd']
      split_ifs with h0
      · simp [h0, eq_comm]
      · rw [← ih (Nat.pos_of_ne_zero h0)]
        constructor
        · intro h
          obtain ⟨k', hk', hkk⟩ := Option.map_eq_some'.1 h
          obtain rfl : k' = k := by omega
          exact .inr ⟨by omega, hk'⟩
        · rintro (⟨-, h⟩ | ⟨-, h⟩)
          · omega
          · simp [h]

theorem skipGradient_eq_none_iff {tokens : List CssToken} {d : ℕ} (hd : 0 < d) :
    skipGradient d tokens = none ↔ ∀ k, ¬ClosesAt d tokens k := by
  simp only [Option.eq_none_iff_forall_not_mem, Option.mem_def, skipGradient_eq_some_iff hd]

/-- The guarded append of the gradient's `none`: it fails exactly when the
allocator does, and then puts `*ctx` back at `orig`. -/
theorem guardError_styleAppend (code : Int) (orig : ℕ) (s : ParseState) :
    guardError (styleAppend code) (setCtx orig) (pure .ok) s =
      if s.alloc.headD false then (.nomem, { s with ctx := orig, alloc := s.alloc.tail })
      else (.ok, { s with result := s.result ++ [code], alloc := s.alloc.tail }) := by
  unfold guardError styleAppend
  by_cases h : s.alloc.headD false = true
  · simp only [h, if_true, reduceCtorEq, if_false, setCtx_apply]
  · simp only [h, if_false, if_true, Bool.false_eq_true, ParseM.pure_apply]

/-- The tokens of `linear-gradient(red)`. -/
def linearGradientRed : List CssToken :=
  [⟨.function, "linear-gradient"⟩, ⟨.ident, "red"⟩, ⟨.char, ")"⟩]

/-- A `linear-gradient(` or `radial-gradient(` token at `*ctx`: when a `)`
brings the depth back to zero, the parser appends one `none` and stops past
that `)`, or fails for memory with `*ctx` and the result as they were; when the
tokens run out first it returns `CSS_INVALID` and changes nothing. -/
theorem cssParseBackgroundImage_gradient (resolveUri : String → Except CssError ℕ)
    (vector : List CssToken) (s : ParseState) {token : CssToken}
    (htok : vector[s.ctx]? = some token) (hgrad : isGradient token) :
    (∃ k, ClosesAt 1 (vector.drop (s.ctx + 1)) k ∧
        cssParseBackgroundImage resolveUri vector s =
          if s.alloc.headD false then (.nomem, { s with alloc := s.alloc.tail })
          else (.ok, { s with ctx := s.ctx + 1 + k,
                              result := s.result ++
                                [buildOPV cssPropBackgroundImage 0 backgroundImageNone],
                              alloc := s.alloc.tail })) ∨
      ((∀ k, ¬ClosesAt 1 (vector.drop (s.ctx + 1)) k) ∧
        cssParseBackgroundImage resolveUri vector s = (.invalid, s)) := by
  have hfun : token.type = .function := by
    simp only [isGradient, Bool.and_eq_true, decide_eq_true_eq] at hgrad
    exact hgrad.1
  have hone : ((1 : ℕ) : Int) = 1 := rfl
  rcases hskip : skipGradient 1 (vector.drop (s.ctx + 1)) with _ | k
  · refine .inr ⟨hone ▸ (skipGradient_eq_none_iff Nat.one_pos).1 hskip, ?_⟩
    simp [cssParseBackgroundImage, htok, hfun, hgrad, hskip]
  · refine .inl ⟨k, hone ▸ (skipGradient_eq_some_iff Nat.one_pos).1 hskip, ?_⟩
    simp only [cssParseBackgroundImage, htok, hfun, hgrad, hskip, reduceCtorEq, if_false, if_true,
      styleAppendOPV, guardError_styleAppend]

theorem cssParseBackgroundImage_gradient_linearGradientRed :
    linearGradientRed[0]? = some ⟨.function, "linear-gradient"⟩ ∧
      isGradient ⟨.function, "linear-gradient"⟩ = true ∧
      ((∃ k, ClosesAt 1 (linearGradientRed.drop 1) k ∧
          cssParseBackgroundImage (fun _ => .error .invalid) linearGradientRed ⟨0, [], []⟩ =
            if ([] : List Bool).headD false then (.nomem, ⟨0, [], [].tail⟩)
            else (.ok, ⟨0 + 1 + k, [] ++ [buildOPV cssPropBackgroundImage 0 backgroundImageNone],
              [].tail⟩)) ∨
        ((∀ k, ¬ClosesAt 1 (linearGradientRed.drop 1) k) ∧
          cssParseBackgroundImage (fun _ => .error .invalid) linearGradientRed ⟨0, [], []⟩ =
            (.invalid, ⟨0, [], []⟩))) :=
  ⟨rfl, by decide,
    cssParseBackgroundImage_gradient (fun _ => .error .invalid) linearGradientRed ⟨0, [], []⟩ rfl
      (by decide)⟩

/-! ### Parentheses inside a gradient

A `(` that opens no function is a `CHAR` token, which the loop does not count,
while the `)` that closes it is.  In `linear-gradient(red calc((50%)))` the
skip therefore ends one `)` early and leaves the gradient's own `)` unread. -/

/-- The tokens of `linear-gradient(red calc((50%)))`. -/
def gradientNestedParens : List CssToken :=
  [⟨.function, "linear-gradient"⟩, ⟨.ident, "red"⟩, ⟨.s, " "⟩, ⟨.function, "calc"⟩, ⟨.char, "("⟩,
    ⟨.percentage, "50"⟩, ⟨.char, ")"⟩, ⟨.char, ")"⟩, ⟨.char, ")"⟩]

theorem cssParseBackgroundImage_nestedParens :
    cssParseBackgroundImage (fun _ => .error .invalid) gradientNestedParens ⟨0, [], []⟩ =
        (.ok, ⟨8, [buildOPV cssPropBackgroundImage 0 backgroundImageNone], []⟩) ∧
      gradientNestedParens[8]? = some ⟨.char, ")"⟩ := by
  decide

end Css
end Neosurf
