import Neosurf.TransformCascade

/-!
# Who owns a computed style's list arrays

A computed style points at two grid track arrays and a transform function
array.  The cascades allocate a fresh array and hand it to
`set_grid_template_columns`, `set_grid_template_rows` or `set_transform`,
which take it over; `initial` and `from_hint` install `NULL`.  The copy and
compose functions differ: `css__copy_transform` allocates a new array and
copies the functions into it, while `css__copy_grid_template_columns` and
`css__compose_grid_template_columns` (and their `rows` twins,
`select/properties/grid_template_columns.c`) hand the source's pointer to the
target, which then shares it.

Styles are named by numbers, arrays by the handles `malloc` returns.
-/

namespace Neosurf
namespace Css

/-- The properties whose values carry an array. -/
inductive ListProperty
  | gridTemplateColumns | gridTemplateRows | transform
  deriving DecidableEq, Repr

/-- The contents of an array. -/
inductive ListPayload
  | tracks (tracks : List CssComputedGridTrack)
  | functions (functions : List CssTransformFunction)
  deriving DecidableEq, Repr

/-- What a style holds for one list property: the type, `n_functions` (`0`
for the grid properties) and the array's handle, `none` for `NULL`. -/
structure ListSlot where
  type : ℕ
  count : ℕ
  handle : Option ℕ
  deriving DecidableEq, Repr

/-- The computed styles' list slots, the heap of arrays, and the handle the
next `malloc` returns. -/
structure StyleStore where
  slot : ℕ → ListProperty → ListSlot
  heap : ℕ → Option ListPayload
  next : ℕ

/-- No style holds anything and nothing is allocated. -/
def StyleStore.empty : StyleStore := ⟨fun _ _ => ⟨0, 0, none⟩, fun _ => none, 0⟩

/-- `set_*`: the target style's slot replaced. -/
def StyleStore.setList (store : StyleStore) (style : ℕ) (prop : ListProperty) (slot : ListSlot) :
    StyleStore :=
  { store with slot := fun s p => if s = style ∧ p = prop then slot else store.slot s p }

/-- `malloc` and the writes into the new array: a fresh handle. -/
def StyleStore.malloc (store : StyleStore) (payload : ListPayload) : StyleStore :=
  { store with heap := fun h => if h = store.next then some payload else store.heap h,
               next := store.next + 1 }

/-- `set_*` with an array the caller allocated for it, or with `NULL`. -/
def StyleStore.install (store : StyleStore) (style : ℕ) (prop : ListProperty) (type count : ℕ) :
    Option ListPayload → StyleStore
  | none => store.setList style prop ⟨type, count, none⟩
  | some payload => (store.malloc payload).setList style prop ⟨type, count, some store.next⟩

/-- A cascade of a list property into `style`: the decoders of the cascade
modules, and `set_*` when the declaration outranks. -/
def StyleStore.cascade (store : StyleStore) (style : ℕ) (prop : ListProperty) (opv : Int)
    (bytecode : List Int) (outranks mallocOk : Bool) : StyleStore :=
  match prop with
  | .gridTemplateColumns =>
      match (cssCascadeGridTemplateColumns opv bytecode outranks mallocOk).installed with
      | some (value, tracks) => store.install style prop value 0 (tracks.map .tracks)
      | none => store
  | .gridTemplateRows =>
      match (cssCascadeGridTemplateRows opv bytecode outranks mallocOk).installed with
      | some (value, tracks) => store.install style prop value 0 (tracks.map .tracks)
      | none => store
  | .transform =>
      match (cssCascadeTransform opv bytecode outranks mallocOk).installed with
      | some (value, n, functions) => store.install style prop value n (functions.map .functions)
      | none => store

/-- `css__initial_*`: `NONE` and `NULL`. -/
def StyleStore.initial (store : StyleStore) (style : ℕ) (prop : ListProperty) : StyleStore :=
  match prop with
  | .transform => store.setList style prop ⟨cssTransformNone, 0, none⟩
  | _ => store.setList style prop ⟨cssGridTemplateNone, 0, none⟩

/-- `css__set_*_from_hint`: the hint's status and `NULL`. -/
def StyleStore.fromHint (store : StyleStore) (style : ℕ) (prop : ListProperty) (status : ℕ) :
    StyleStore :=
  store.setList style prop ⟨status, 0, none⟩

/-- `css__copy_grid_template_*`: the source's type and pointer. -/
def StyleStore.copyGridTemplate (store : StyleStore) (prop : ListProperty) (src dst : ℕ) :
    StyleStore :=
  if src = dst then store else store.setList dst prop (store.slot src prop)

/-- `css__copy_transform`: a new array with the source's functions, when it
has any; `mallocOk` is the answer of that `malloc`. -/
def StyleStore.copyTransform (store : StyleStore) (src dst : ℕ) (mallocOk : Bool) : StyleStore :=
  if src = dst then store
  else
    let slot := store.slot src .transform
    match slot.handle with
    | some h =>
        if slot.type = cssTransformFunctions ∧ 0 < slot.count then
          if mallocOk then
            store.install dst .transform slot.type slot.count
              (some ((store.heap h).getD (.functions [])))
          else store
        else store.setList dst .transform ⟨slot.type, 0, none⟩
    | none => store.setList dst .transform ⟨slot.type, 0, none⟩

/-- `css__copy_*` of one list property. -/
def StyleStore.copy (store : StyleStore) (prop : ListProperty) (src dst : ℕ) (mallocOk : Bool) :
    StyleStore :=
  match prop with
  | .transform => store.copyTransform src dst mallocOk
  | _ => store.copyGridTemplate prop src dst

/-- `css__compose_*`: the child's value, or the parent's when the child's is
`INHERIT`.  The grid versions set the result from the chosen style's slot;
`css__compose_transform` copies it. -/
def StyleStore.compose (store : StyleStore) (prop : ListProperty) (parent child result : ℕ)
    (mallocOk : Bool) : StyleStore :=
  match prop with
  | .transform =>
      store.copyTransform
        (if (store.slot child .transform).type = cssTransformInherit then parent else child)
        result mallocOk
  | _ =>
      let slot := store.slot child prop
      if slot.type = cssGridTemplateInherit then store.setList result prop (store.slot parent prop)
      else store.setList result prop slot

/-- The operations on computed styles that touch list arrays. -/
inductive StyleOp
  | cascade (style : ℕ) (prop : ListProperty) (opv : Int) (bytecode : List Int)
      (outranks mallocOk : Bool)
  | initial (style : ℕ) (prop : ListProperty)
  | fromHint (style : ℕ) (prop : ListProperty) (status : ℕ)
  | copy (prop : ListProperty) (src dst : ℕ) (mallocOk : Bool)
  | compose (prop : ListProperty) (parent child result : ℕ) (mallocOk : Bool)

def StyleStore.step (store : StyleStore) : StyleOp → StyleStore
  | .cascade style prop opv bytecode outranks mallocOk =>
      store.cascade style prop opv bytecode outranks mallocOk
  | .initial style prop => store.initial style prop
  | .fromHint style prop status => store.fromHint style prop status
  | .copy prop src dst mallocOk => store.copy prop src dst mallocOk
  | .compose prop parent child result mallocOk => store.compose prop parent child result mallocOk

def StyleStore.run (store : StyleStore) (ops : List StyleOp) : StyleStore :=
  ops.foldl StyleStore.step store

/-- Every array a style holds was allocated and has contents, and no two slots
hold the same array. -/
structure StyleStore.Owned (store : StyleStore) : Prop where
  fresh : ∀ style prop h, (store.slot style prop).handle = some h → h < store.next
  allocated : ∀ style prop h, (store.slot style prop).handle = some h → (store.heap h).isSome
  unique : ∀ style prop style' prop' h, (store.slot style prop).handle = some h →
    (store.slot style' prop').handle = some h → style = style' ∧ prop = prop'

/-- The operations that never hand an array on: all but the grid copies and
composes. -/
def StyleOp.Deep : StyleOp → Bool
  | .copy prop .. => prop = .transform
  | .compose prop .. => prop = .transform
  | _ => true

namespace StyleStore

variable {store : StyleStore} {style : ℕ} {prop : ListProperty}

@[simp] theorem setList_slot (slot : ListSlot) (s : ℕ) (p : ListProperty) :
    (store.setList style prop slot).slot s p = if s = style ∧ p = prop then slot else store.slot s p :=
  rfl

theorem empty_owned : empty.Owned :=
  ⟨fun _ _ _ h => (by cases h), fun _ _ _ h => (by cases h), fun _ _ _ _ _ h _ => (by cases h)⟩

/-- Replacing a slot keeps ownership when the new handle is allocated and
held by no other slot. -/
theorem Owned.setList (hown : store.Owned) {slot : ListSlot}
    (hslot : ∀ h, slot.handle = some h → h < store.next ∧ (store.heap h).isSome ∧
      ∀ s p, (store.slot s p).handle = some h → s = style ∧ p = prop) :
    (store.setList style prop slot).Owned where
  fresh s p h hs := by
    rw [setList_slot] at hs
    split_ifs at hs
    · exact (hslot h hs).1
    · exact hown.fresh s p h hs
  allocated s p h hs := by
    rw [setList_slot] at hs
    split_ifs at hs
    · exact (hslot h hs).2.1
    · exact hown.allocated s p h hs
  unique s p s' p' h hs hs' := by
    rw [setList_slot] at hs hs'
    split_ifs at hs hs' with h1 h2 h2
    · exact ⟨h1.1.trans h2.1.symm, h1.2.trans h2.2.symm⟩
    · exact absurd ((hslot h hs).2.2 s' p' hs') h2
    · exact absurd ((hslot h hs').2.2 s p hs) h1
    · exact hown.unique s p s' p' h hs hs'

theorem Owned.setList_none (hown : store.Owned) (type count : ℕ) :
    (store.setList style prop ⟨type, count, none⟩).Owned :=
  hown.setList fun _ h => by cases h

@[simp] theorem malloc_heap (payload : ListPayload) (h : ℕ) :
    (store.malloc payload).heap h = if h = store.next then some payload else store.heap h :=
  rfl

theorem Owned.malloc (hown : store.Owned) (payload : ListPayload) : (store.malloc payload).Owned where
  fresh s p h hs := Nat.lt_succ_of_lt (hown.fresh s p h hs)
  allocated s p h hs := by
    rw [malloc_heap, if_neg (Nat.ne_of_lt (hown.fresh s p h hs))]
    exact hown.allocated s p h hs
  unique := hown.unique

/-- Installing a freshly allocated array keeps ownership. -/
theorem Owned.install (hown : store.Owned) (type count : ℕ) (payload : Option ListPayload) :
    (store.install style prop type count payload).Owned := by
  cases payload with
  | none => exact hown.setList_none type count
  | some payload =>
      refine (hown.malloc payload).setList fun h hh => ?_
      cases hh
      refine ⟨Nat.lt_succ_self _, by simp, fun s p hs => ?_⟩
      exact absurd (hown.fresh s p _ hs) (Nat.lt_irrefl _)

theorem Owned.cascade (hown : store.Owned) (opv : Int) (bytecode : List Int)
    (outranks mallocOk : Bool) : (store.cascade style prop opv bytecode outranks mallocOk).Owned := by
  unfold StyleStore.cascade
  cases prop
  · rcases (cssCascadeGridTemplateColumns opv bytecode outranks mallocOk).installed with _ | ⟨_, _⟩
    exacts [hown, hown.install _ _ _]
  · rcases (cssCascadeGridTemplateRows opv bytecode outranks mallocOk).installed with _ | ⟨_, _⟩
    exacts [hown, hown.install _ _ _]
  · rcases (cssCascadeTransform opv bytecode outranks mallocOk).installed with _ | ⟨_, _, _⟩
    exacts [hown, hown.install _ _ _]

theorem Owned.copyTransform (hown : store.Owned) (src dst : ℕ) (mallocOk : Bool) :
    (store.copyTransform src dst mallocOk).Owned := by
  unfold StyleStore.copyTransform
  by_cases hsd : src = dst
  · rw [if_pos hsd]
    exact hown
  rw [if_neg hsd]
  dsimp only
  split
  · split_ifs
    · exact hown.install _ _ _
    · exact hown
    · exact hown.setList_none _ _
  · exact hown.setList_none _ _

/-- Every operation but the grid copies and composes keeps ownership. -/
theorem Owned.step (hown : store.Owned) {op : StyleOp} (hop : op.Deep) : (store.step op).Owned := by
  cases op with
  | cascade style prop opv bytecode outranks mallocOk => exact hown.cascade opv bytecode outranks mallocOk
  | initial style prop => cases prop <;> exact hown.setList_none _ _
  | fromHint style prop status => exact hown.setList_none _ _
  | copy prop src dst mallocOk =>
      simp only [StyleOp.Deep, decide_eq_true_eq] at hop
      subst hop
      exact hown.copyTransform src dst mallocOk
  | compose prop parent child result mallocOk =>
      simp only [StyleOp.Deep, decide_eq_true_eq] at hop
      subst hop
      exact hown.copyTransform _ result mallocOk

/-- From a store where no two slots hold one array, every run of cascades, initial values,
hints, and `transform` copies and composes, whichever `malloc`s fail, keeps every held array
allocated and held by one slot only. -/
theorem Owned.deepRun (hown : store.Owned) {ops : List StyleOp} (hops : ∀ op ∈ ops, op.Deep) :
    (store.run ops).Owned := by
  induction ops generalizing store with
  | nil => exact hown
  | cons op ops ih =>
      simp only [List.mem_cons, forall_eq_or_imp] at hops
      exact ih (hown.step hops.1) hops.2

/-- A one-track column list and a `transform` cascaded into style 0, the `transform`
copied to style 1 and composed into style 3 from a child (style 2) that inherits it. -/
theorem Owned.deepRun_cascadeCopyCompose :
    empty.Owned ∧
      (∀ op ∈ [StyleOp.cascade 0 .gridTemplateColumns
          (buildOPV cssPropGridTemplateColumns 0 gridTemplateSet) [1, 1024, unitPx] true true,
        .cascade 0 .transform (buildOPV cssPropTransform 0 1) [1, transformRotate, 90, unitDeg] true true,
        .copy .transform 0 1 true, .compose .transform 0 2 3 true], op.Deep) ∧
      (empty.run [StyleOp.cascade 0 .gridTemplateColumns
          (buildOPV cssPropGridTemplateColumns 0 gridTemplateSet) [1, 1024, unitPx] true true,
        .cascade 0 .transform (buildOPV cssPropTransform 0 1) [1, transformRotate, 90, unitDeg] true true,
        .copy .transform 0 1 true, .compose .transform 0 2 3 true]).Owned :=
  ⟨empty_owned, by decide, Owned.deepRun empty_owned (by decide)⟩

end StyleStore

/-! ### Grid copies that share

A cascade gives style 0 a one-track column list; copying it to style 1, or
composing style 1 from a child (style 2) whose value is `INHERIT`, leaves
both styles holding the same array. -/

/-- A one-track `grid-template-columns` declaration cascaded into style 0. -/
def cascadeOneTrack : StyleOp :=
  .cascade 0 .gridTemplateColumns (buildOPV cssPropGridTemplateColumns 0 gridTemplateSet)
    [1, 1024, unitPx] true true

theorem copyGridTemplate_shares_array :
    (StyleStore.empty.run [cascadeOneTrack, .copy .gridTemplateColumns 0 1 true]).slot 0
        .gridTemplateColumns = ⟨cssGridTemplateSet, 0, some 0⟩ ∧
      (StyleStore.empty.run [cascadeOneTrack, .copy .gridTemplateColumns 0 1 true]).slot 1
        .gridTemplateColumns = ⟨cssGridTemplateSet, 0, some 0⟩ ∧
      (StyleStore.empty.run [cascadeOneTrack, .compose .gridTemplateColumns 0 2 1 true]).slot 1
        .gridTemplateColumns = ⟨cssGridTemplateSet, 0, some 0⟩ ∧
      ¬(StyleStore.empty.run [cascadeOneTrack, .copy .gridTemplateColumns 0 1 true]).Owned := by
  refine ⟨by decide, by decide, by decide, fun hown => ?_⟩
  exact absurd (hown.unique 0 .gridTemplateColumns 1 .gridTemplateColumns 0 (by decide)
    (by decide)).1 (by decide)

end Css
end Neosurf
