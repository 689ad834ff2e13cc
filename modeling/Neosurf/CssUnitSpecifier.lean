import Neosurf.CssBytecode

/-!
# `css__parse_unit_specifier`

Every length-valued property parser reads its numbers through libcss's
`css__parse_unit_specifier` (`parse/properties/utils.c`, not under `src/`):
skip whitespace, then one `DIMENSION`, `PERCENTAGE` or `NUMBER` token, the
number read by `css__number_from_lwc_string` and a dimension's unit by
`css__parse_unit_keyword`.  Outside quirks mode a bare number must be zero; in
quirks mode it may be non-zero and may be followed by a unit keyword.  On
failure `*ctx` is restored.

The two lexical helpers are fields of the parsing context, so that the
results of the parser modules hold for any number reader and any unit table.
-/

namespace Neosurf
namespace Css

/-- The parsing context `c` as the property parsers read it: the sheet's
`quirks_allowed`, and the lexical helpers `css__number_from_lwc_string`
(fixed-point value and bytes consumed) and `css__parse_unit_keyword`. -/
structure CssLanguage where
  quirksAllowed : Bool
  numberFromLwcString : String → Bool → Int × ℕ
  parseUnitKeyword : String → Option ℕ

/-- The rest of a dimension's text after its number: `data + consumed`. -/
def unitText (idata : String) (consumed : ℕ) : String :=
  ⟨idata.data.drop consumed⟩

/-- The quirks-mode tail of `css__parse_unit_specifier`: a unit keyword after
a bare number, ignored when absent. -/
def quirksUnit (c : CssLanguage) (vector : List CssToken) (next : ℕ) (num : Int)
    (defaultUnit : ℕ) : ℕ × Int × ℕ :=
  let temp := consumeWhitespace vector next
  match vector[temp]? with
  | some token =>
      if token.type = .ident then
        match c.parseUnitKeyword token.idata with
        | some unit => (temp + 1, num, unit)
        | none => (next, num, defaultUnit)
      else (next, num, defaultUnit)
  | none => (next, num, defaultUnit)

/-- `css__parse_unit_specifier`: the new `*ctx`, the length and the unit, or
`none` for `CSS_INVALID` with `*ctx` restored. -/
def cssParseUnitSpecifier (c : CssLanguage) (vector : List CssToken) (ctx defaultUnit : ℕ) :
    Option (ℕ × Int × ℕ) :=
  let start := consumeWhitespace vector ctx
  match vector[start]? with
  | none => none
  | some token =>
      let num := (c.numberFromLwcString token.idata false).1
      let consumed := (c.numberFromLwcString token.idata false).2
      match token.type with
      | .dimension =>
          (c.parseUnitKeyword (unitText token.idata consumed)).map fun unit => (start + 1, num, unit)
      | .number =>
          if num ≠ 0 ∧ c.quirksAllowed = false then none
          else if c.quirksAllowed then some (quirksUnit c vector (start + 1) num defaultUnit)
          else some (start + 1, num, defaultUnit)
      | .percentage =>
          if consumed = token.idata.length then some (start + 1, num, unitPct) else none
      | _ => none

/-- The monadic call site `error = css__parse_unit_specifier(c, vector, ctx,
default, &length, &unit)`. -/
def unitSpecifier (c : CssLanguage) (vector : List CssToken) (defaultUnit : ℕ) :
    ParseM (Option (Int × ℕ)) := fun s =>
  match cssParseUnitSpecifier c vector s.ctx defaultUnit with
  | some (ctx', length, unit) => (some (length, unit), { s with ctx := ctx' })
  | none => (none, s)

/-! ### Cursor facts -/

section Cursor

variable {c : CssLanguage} {vector : List CssToken} {ctx defaultUnit : ℕ}

theorem consumeWhitespace_idem (vector : List CssToken) (ctx : ℕ) :
    consumeWhitespace vector (consumeWhitespace vector ctx) = consumeWhitespace vector ctx := by
  cases h : vector[consumeWhitespace vector ctx]? with
  | none => exact consumeWhitespace_of_none h
  | some t => exact consumeWhitespace_of_not_s h (consumeWhitespace_stops t h)

theorem quirksUnit_bounds (num : Int) (next : ℕ) (hnext : next ≤ vector.length) :
    next ≤ (quirksUnit c vector next num defaultUnit).1 ∧
      (quirksUnit c vector next num defaultUnit).1 ≤ vector.length := by
  have hle := @ctx_le_consumeWhitespace vector next
  dsimp only [quirksUnit]
  split
  · next token htok =>
      have hlt := (List.getElem?_eq_some_iff.mp htok).1
      split
      · split <;> dsimp only <;> omega
      · dsimp only; omega
  · dsimp only; omega

/-- A successful specifier reads the first non-whitespace token and stops
inside the vector past it. -/
theorem cssParseUnitSpecifier_some {next : ℕ} {length : Int} {unit : ℕ}
    (h : cssParseUnitSpecifier c vector ctx defaultUnit = some (next, length, unit)) :
    ∃ token, vector[consumeWhitespace vector ctx]? = some token ∧
      (token.type = .dimension ∨ token.type = .number ∨ token.type = .percentage) ∧
      consumeWhitespace vector ctx < next ∧ next ≤ vector.length := by
  cases htok : vector[consumeWhitespace vector ctx]? with
  | none => simp [cssParseUnitSpecifier, htok] at h
  | some token =>
    have hlt := (List.getElem?_eq_some_iff.mp htok).1
    refine ⟨token, rfl, ?_⟩
    simp only [cssParseUnitSpecifier, htok] at h
    split at h
    · next hty =>
      obtain ⟨unit', -, hu⟩ := Option.map_eq_some'.mp h
      cases hu
      exact ⟨.inl hty, by omega, by omega⟩
    · next hty =>
      split_ifs at h
      · have := @quirksUnit_bounds c vector defaultUnit
          (c.numberFromLwcString token.idata false).1 _ (Nat.succ_le_of_lt hlt)
        simp only [Option.some.inj h] at this
        exact ⟨.inr (.inl hty), by omega, this.2⟩
      · cases h
        exact ⟨.inr (.inl hty), by omega, by omega⟩
    · next hty =>
      split_ifs at h
      cases h
      exact ⟨.inr (.inr hty), by omega, by omega⟩
    · cases h

/-- A successful specifier starts at whitespace or at its numeric token, never
at an identifier or the end of the input. -/
theorem cssParseUnitSpecifier_some_at {next : ℕ} {length : Int} {unit : ℕ}
    (h : cssParseUnitSpecifier c vector ctx defaultUnit = some (next, length, unit)) :
    ∃ token, vector[ctx]? = some token ∧ token.type ≠ .ident ∧ token.type ≠ .eof := by
  obtain ⟨t, ht, hty, -⟩ := cssParseUnitSpecifier_some h
  rcases htok : vector[ctx]? with _ | token
  · rw [consumeWhitespace_of_none htok, htok] at ht
    cases ht
  by_cases hs : token.type = .s
  · exact ⟨token, rfl, by simp [hs], by simp [hs]⟩
  · rw [consumeWhitespace_of_not_s htok hs, htok, Option.some.injEq] at ht
    subst ht
    exact ⟨token, rfl, by rcases hty with h | h | h <;> simp [h], by rcases hty with h | h | h <;> simp [h]⟩

theorem atEndOfValue_consumeWhitespace :
    atEndOfValue vector (consumeWhitespace vector ctx) = atEndOfValue vector ctx := by
  rw [Bool.eq_iff_iff, atEndOfValue_iff, atEndOfValue_iff, consumeWhitespace_idem]

end Cursor

/-! ### A concrete context

The parser results hold for every `CssLanguage`.  `standardLanguage` is one to
evaluate in: standards mode, a decimal integer reader (sign and digits, as
`css__number_from_string` reads an integral number) and four of the unit names
of `css__parse_unit_keyword`. -/

/-- Digits of a decimal integer and how many characters they took. -/
def readDigits : List Char → ℕ → ℕ × ℕ
  | ch :: rest, acc =>
      if ch.isDigit then
        let r := readDigits rest (acc * 10 + (ch.toNat - '0'.toNat))
        (r.1, r.2 + 1)
      else (acc, 0)
  | [], acc => (acc, 0)

/-- An integral `css__number_from_lwc_string`: the value as `css_fixed`
(ten fractional bits) and the characters consumed. -/
def readInteger (idata : String) (_intOnly : Bool) : Int × ℕ :=
  match idata.data with
  | '-' :: rest =>
      let r := readDigits rest 0
      if r.2 = 0 then (0, 0) else (-(r.1 * 1024 : ℕ), r.2 + 1)
  | '+' :: rest =>
      let r := readDigits rest 0
      if r.2 = 0 then (0, 0) else ((r.1 * 1024 : ℕ), r.2 + 1)
  | chars =>
      let r := readDigits chars 0
      ((r.1 * 1024 : ℕ), r.2)

/-- `css__parse_unit_keyword` on `px`, `deg`, `dpi` and `fr`; other names are unknown. -/
def unitKeyword (name : String) : Option ℕ :=
  if caselessIsEqual name "px" then some unitPx
  else if caselessIsEqual name "deg" then some unitDeg
  else if caselessIsEqual name "dpi" then some unitResolution
  else if caselessIsEqual name "fr" then some unitFr
  else none

def standardLanguage : CssLanguage where
  quirksAllowed := false
  numberFromLwcString := readInteger
  parseUnitKeyword := unitKeyword

end Css
end Neosurf
