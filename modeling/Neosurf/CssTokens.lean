import Mathlib.Data.List.Basic
import Mathlib.Tactic.Common

/-!
# Token vectors as the libcss property parsers read them

A property parser of `parse/properties/` walks a `parserutils_vector` of
`css_token`s through the index `*ctx`.  This module models the vector
primitives those parsers call (`parserutils_vector_iterate`,
`parserutils_vector_peek`, `consumeWhitespace`, `tokenIsChar`), the caseless
keyword comparison against `c->strings[...]`, and `get_css_flag_value`.  None
of them is under `src/`: they are libcss's `parserutils` and
`parse/properties/utils.h`, modelled as libcss has them.
-/

namespace Neosurf
namespace Css

/-- `css_token_type`. -/
inductive CssTokenType
  | ident | atKeyword | hash | function | string | invalidString | uri | unicodeRange
  | char | number | percentage | dimension | cdo | cdc | s | comment
  | includes | dashMatch | prefixMatch | suffixMatch | substringMatch | eof
  deriving DecidableEq, Repr

/-- A lexed token: its type and its `idata` text. -/
structure CssToken where
  type : CssTokenType
  idata : String
  deriving DecidableEq, Repr

/-- `parserutils_vector_iterate`: the token at `*ctx`, and `*ctx` moved past
it; past the end, `NULL` and `*ctx` unchanged. -/
def parserutilsVectorIterate (vector : List CssToken) (ctx : ℕ) :
    Option CssToken × ℕ :=
  match vector[ctx]? with
  | some token => (some token, ctx + 1)
  | none => (none, ctx)

/-- `parserutils_vector_peek`. -/
def parserutilsVectorPeek (vector : List CssToken) (ctx : ℕ) : Option CssToken :=
  vector[ctx]?

/-- Length of the run of whitespace tokens that starts a token list. -/
def wsRun : List CssToken → ℕ
  | [] => 0
  | token :: rest => if token.type = .s then wsRun rest + 1 else 0

/-- `consumeWhitespace`: iterate while the peeked token is whitespace. -/
def consumeWhitespace (vector : List CssToken) (ctx : ℕ) : ℕ :=
  ctx + wsRun (vector.drop ctx)

/-- The value ends at `ctx`: only whitespace is left, as the declaration
parser requires before `!important` and the end of the declaration. -/
def atEndOfValue (vector : List CssToken) (ctx : ℕ) : Bool :=
  (vector.drop ctx).all fun t => t.type = .s

/-- `tokenIsChar`: a one-character `CHAR` token equal to `c` after ASCII
lower-casing. -/
def tokenIsChar (token : CssToken) (c : Char) : Bool :=
  token.type = .char && token.idata.length = 1 && token.idata.data.head!.toLower = c

/-- `lwc_string_caseless_isequal(s, keyword, &match) == lwc_error_ok && match`
for one of the lower-case interned keywords `c->strings[...]`. -/
def caselessIsEqual (s keyword : String) : Bool :=
  s.data.map Char.toLower = keyword.data

/-- `enum flag_value`. -/
inductive FlagValue
  | none | inherit | initial | revert | unset
  deriving DecidableEq, Repr

/-- The numeric value of an `enum flag_value`. -/
def FlagValue.code : FlagValue → ℕ
  | .none => 0
  | .inherit => 1
  | .initial => 2
  | .revert => 3
  | .unset => 4

/-- `get_css_flag_value`: the CSS-wide keyword an `IDENT` token names. -/
def getCssFlagValue (token : CssToken) : FlagValue :=
  if token.type = .ident then
    if caselessIsEqual token.idata "inherit" then .inherit
    else if caselessIsEqual token.idata "initial" then .initial
    else if caselessIsEqual token.idata "revert" then .revert
    else if caselessIsEqual token.idata "unset" then .unset
    else .none
  else .none

/-- A token is an `IDENT` naming `keyword` up to ASCII case. -/
def isKeyword (token : CssToken) (keyword : String) : Bool :=
  token.type = .ident && caselessIsEqual token.idata keyword

theorem getCssFlagValue_of_ne_ident {token : CssToken} (h : token.type ≠ .ident) :
    getCssFlagValue token = .none := by
  simp [getCssFlagValue, h]

theorem isKeyword_of_ne_ident {token : CssToken} (h : token.type ≠ .ident) (keyword : String) :
    isKeyword token keyword = false := by
  simp [isKeyword, h]

/-- `normal` is not a CSS-wide keyword. -/
theorem getCssFlagValue_of_isKeyword_normal {token : CssToken} (h : isKeyword token "normal") :
    getCssFlagValue token = .none := by
  simp only [isKeyword, caselessIsEqual, Bool.and_eq_true, decide_eq_true_eq] at h
  simp [getCssFlagValue, caselessIsEqual, h.1, h.2]

/-! ### Vector primitives -/

section Vector

variable {vector : List CssToken} {ctx : ℕ} {token : CssToken}

/-- The token that ends a whitespace run is not whitespace. -/
theorem wsRun_stops : ∀ (tokens : List CssToken) t, tokens[wsRun tokens]? = some t → t.type ≠ .s
  | [], _, ht => by simp [wsRun] at ht
  | token :: rest, t, ht => by
      by_cases hs : token.type = .s
      · simp only [wsRun, hs, if_true, List.getElem?_cons_succ] at ht
        exact wsRun_stops rest t ht
      · simp only [wsRun, hs, if_false, List.getElem?_cons_zero, Option.some.injEq] at ht
        exact ht ▸ hs

theorem ctx_le_consumeWhitespace : ctx ≤ consumeWhitespace vector ctx :=
  Nat.le_add_right _ _

private theorem drop_eq_cons_of_getElem? (h : vector[ctx]? = some token) :
    vector.drop ctx = token :: vector.drop (ctx + 1) := by
  obtain ⟨hlt, heq⟩ := List.getElem?_eq_some_iff.mp h
  rw [List.drop_eq_getElem_cons hlt, heq]

/-- A non-whitespace token stops `consumeWhitespace` where it stands. -/
theorem consumeWhitespace_of_not_s (h : vector[ctx]? = some token) (hs : token.type ≠ .s) :
    consumeWhitespace vector ctx = ctx := by
  simp [consumeWhitespace, drop_eq_cons_of_getElem? h, wsRun, hs]

/-- At the end of the vector `consumeWhitespace` does nothing. -/
theorem consumeWhitespace_of_none (h : vector[ctx]? = none) :
    consumeWhitespace vector ctx = ctx := by
  have hdrop : vector.drop ctx = [] := by
    simpa [List.getElem?_eq_none_iff] using h
  simp [consumeWhitespace, hdrop, wsRun]

/-- `consumeWhitespace` stops at the end or at a token that is not whitespace. -/
theorem consumeWhitespace_stops (t : CssToken)
    (ht : vector[consumeWhitespace vector ctx]? = some t) : t.type ≠ .s := by
  apply wsRun_stops (vector.drop ctx) t
  simpa [consumeWhitespace, List.getElem?_drop] using ht

/-- A token list is all whitespace iff nothing follows its leading run. -/
theorem all_s_iff_wsRun : ∀ tokens : List CssToken,
    tokens.all (fun t => t.type = .s) ↔ tokens[wsRun tokens]? = none
  | [] => by simp
  | token :: rest => by
      by_cases hs : token.type = .s
      · simp [wsRun, hs, all_s_iff_wsRun rest]
      · simp [wsRun, hs]

/-- The value ends at `ctx` iff no token follows the whitespace there. -/
theorem atEndOfValue_iff : atEndOfValue vector ctx ↔ vector[consumeWhitespace vector ctx]? = none := by
  rw [atEndOfValue, all_s_iff_wsRun, consumeWhitespace, List.getElem?_drop]

end Vector

end Css
end Neosurf
