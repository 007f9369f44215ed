import Mathlib.Algebra.GroupWithZero.Nat
import Mathlib.Data.List.Forall2
import ShaderWeave.Proofs.ExpressionReader

/-!
# The Type and the Meaning of an Expression

The typing rules of expressions and what expressions stand for. Numbers are those of any arithmetic in
which zero and one are the same among integers and floats. An expression with a type has a meaning of
that type, whatever its variables stand for.

Two languages are distinguished by whether the components of a scalar can be selected.

## Main definitions

* `Scope`, `Term.typeIn`: the type of an expression where variables have types.
* `Arithmetic`, `Content`, `Term.eval`: the meaning of an expression where variables have contents.
* `Statement.WellTyped`: both sides of a statement have the same type.

## Main results

* `exists_eval_of_typeIn`: typed expressions have a meaning of their type.
-/

namespace ShaderWeave.Source

/-! ## Types -/

/-- The type of an expression. -/
inductive TermType where
  /-- One value. -/
  | single (ty : ValueType)
  /-- An array. -/
  | array (ty : ValueType) (len : Nat)
deriving DecidableEq

/-- The type of a variable. -/
def variableType (var : Variable) : TermType :=
  match var.arrayLen with
  | some len => .array var.ty len.toNat
  | none => .single var.ty

/-- What is known where an expression stands. -/
structure Scope where
  /-- The types of the variables. -/
  types : String → Option TermType
  /-- Whether the component of a scalar can be selected. -/
  scalarSwizzles : Bool

/-- The names of channels; a selection takes its names from one list. -/
def channelNames : List (List Char) :=
  ["xyzw".toList, "rgba".toList, "stpq".toList]

/-- The components that channels select from `width` components. -/
def channelIndices (width : Nat) (channels : String) : Option (List Nat) :=
  (channelNames.find? fun names => channels.toList.all (names.take width).contains).map fun names =>
    channels.toList.map names.idxOf

/-- The type of selected components, of which there are at most four. -/
def selectType (scalars : Bool) : TermType → String → Option TermType
  | .single (.vector kind width), channels =>
    if width = .one ∧ scalars = false then none
    else ((channelIndices width.toNat channels).bind fun indices => Width.ofNat? indices.length).map
      fun selected => .single (.vector kind selected)
  | _, _ => none

/-- The number of rows as a width. -/
def rowsWidth : Columns → Width
  | .two => .two
  | .three => .three
  | .four => .four

/-- The type of an element. -/
def elementType : TermType → Nat → Option TermType
  | .array ty len, i => if i < len then some (.single ty) else none
  | .single (.vector kind width), i =>
    if width ≠ .one ∧ i < width.toNat then some (.single (.vector kind .one)) else none
  | .single (.matrix columns), i =>
    if i < columns.toNat then some (.single (.vector .float (rowsWidth columns))) else none
  | .single (.sampler _), _ => none

/-- The number of components that a constructor takes from an argument. -/
def componentCount : ValueType → Nat
  | .vector _ width => width.toNat
  | .matrix columns => columns.toNat * columns.toNat
  | .sampler _ => 0

/-- Whether arguments have enough components together, and each of them has some that are used. -/
def supplies (needed : Nat) (arguments : List ValueType) : Bool :=
  let counts := arguments.map componentCount
  counts.all (0 < ·) && decide (counts.dropLast.sum < needed) && decide (needed ≤ counts.sum)

/-- Whether a scalar is the only argument. -/
def isSoleScalar : List ValueType → Bool
  | [.vector _ .one] => true
  | _ => false

/-- Whether a matrix is the only argument. -/
def isSoleMatrix : List ValueType → Bool
  | [.matrix _] => true
  | _ => false

/-- Whether a constructor takes arguments of the given types. -/
def constructible : ValueType → List ValueType → Bool
  | .vector _ width, arguments => isSoleScalar arguments || supplies width.toNat arguments
  | .matrix columns, arguments =>
    isSoleScalar arguments || isSoleMatrix arguments ||
      (arguments.all (·.scalarKind.isSome) && supplies (columns.toNat * columns.toNat) arguments)
  | .sampler _, _ => false

/-- The type of one value. -/
def TermType.single? : TermType → Option ValueType
  | single ty => some ty
  | array .. => none

mutual

/-- The type of an expression. -/
def Term.typeIn (scope : Scope) : Term → Option TermType
  | .name text => scope.types text
  | .number written =>
    some (.single (.vector (if written.fraction.isSome then .float else .int) .one))
  | .select source channels =>
    (source.typeIn scope).bind (selectType scope.scalarSwizzles · channels)
  | .element source i => (source.typeIn scope).bind (elementType · i)
  | .construct ty arguments =>
    (Term.typesIn scope arguments).bind fun types =>
      if constructible ty types then some (.single ty) else none

/-- The types of arguments, none of which is an array. -/
def Term.typesIn (scope : Scope) : List Term → Option (List ValueType)
  | [] => some []
  | argument :: rest =>
    ((argument.typeIn scope).bind (·.single?)).bind fun ty =>
      (Term.typesIn scope rest).map (ty :: ·)

end

/-- A number without a point is an integer. -/
theorem Term.typeIn_of_isWhole {t : Term} (scope : Scope) (h : t.isWhole = true) :
    t.typeIn scope = some (.single (.vector .int .one)) := by
  cases t with
  | number written =>
    have hnone : written.fraction.isSome = false := by
      simpa [isWhole] using h
    rw [typeIn, hnone]
    rfl
  | _ => cases h

/-! ## Meanings -/

/-- Floats and integers. Zero and one keep their meaning when they are converted. -/
structure Arithmetic (F I : Type) where
  /-- The float that a number with a point is. -/
  float : Rat → F
  /-- The integer that a number without a point is. -/
  int : Int → I
  /-- The float that an integer is converted to. -/
  toFloat : I → F
  /-- The integer that a float is converted to. -/
  toInt : F → I
  toFloat_zero : toFloat (int 0) = float 0
  toFloat_one : toFloat (int 1) = float 1
  toInt_zero : toInt (float 0) = int 0
  toInt_one : toInt (float 1) = int 1

/-- A float or an integer. -/
inductive Scalar (F I : Type) where
  /-- A float. -/
  | float (x : F)
  /-- An integer. -/
  | int (n : I)

/-- What one value stands for. -/
inductive Quantity (F I : Type) where
  /-- The components of a scalar or vector. -/
  | vector (components : List (Scalar F I))
  /-- The columns of a matrix. -/
  | matrix (columns : List (List F))
  /-- A texture with its sampler, at one of the texture units. -/
  | sampler (dim : TextureDim) (unit : Nat)

/-- What an expression stands for. -/
inductive Content (F I : Type) where
  /-- One value. -/
  | single (quantity : Quantity F I)
  /-- The elements of an array. -/
  | array (elements : List (Quantity F I))

section Evaluation

variable {F I : Type}

/-- Whether the scalar is a float or an integer. -/
def Scalar.kind : Scalar F I → ScalarKind
  | float _ => .float
  | int _ => .int

/-- The scalar as a float. -/
def Arithmetic.asFloat (A : Arithmetic F I) : Scalar F I → F
  | .float x => x
  | .int n => A.toFloat n

/-- The scalar converted to a kind. -/
def Arithmetic.convert (A : Arithmetic F I) : ScalarKind → Scalar F I → Scalar F I
  | .float, s => .float (A.asFloat s)
  | .int, .float x => .int (A.toInt x)
  | .int, .int n => .int n

/-- The scalar that a written number is. -/
def Arithmetic.number (A : Arithmetic F I) (written : WrittenNumber) : Scalar F I :=
  let sign : Int := if written.negative then -1 else 1
  match written.fraction with
  | none => .int (A.int (sign * Nat.ofDigitChars 10 written.whole.toList 0))
  | some fraction =>
    let digits := Nat.ofDigitChars 10 (written.whole.toList ++ fraction.toList) 0
    .float (A.float (mkRat (sign * digits) (10 ^ fraction.toList.length)))

/-- An entry of the identity matrix. -/
def Arithmetic.identityEntry (A : Arithmetic F I) (column row : Nat) : F :=
  if column = row then A.float 1 else A.float 0

/-- The components, column by column for a matrix. -/
def Quantity.components : Quantity F I → List (Scalar F I)
  | vector components => components
  | matrix columns => columns.flatten.map .float
  | sampler .. => []

/-- The scalar that is the only argument. -/
def soleScalar? : List (Quantity F I) → Option (Scalar F I)
  | [.vector [s]] => some s
  | _ => none

/-- The columns of the matrix that is the only argument. -/
def soleMatrix? : List (Quantity F I) → Option (List (List F))
  | [.matrix columns] => some columns
  | _ => none

/-- A square matrix by its entries. -/
def squareMatrix (size : Nat) (entry : Nat → Nat → F) : Quantity F I :=
  .matrix ((List.range size).map fun column => (List.range size).map (entry column))

/-- What a constructor makes of its arguments. A scalar alone is repeated in a vector and stands on the
diagonal of a matrix, and a matrix alone is cut or completed by the identity. Otherwise the components
are taken one after another. -/
def Arithmetic.construct (A : Arithmetic F I) (ty : ValueType) (arguments : List (Quantity F I)) :
    Option (Quantity F I) :=
  let components := arguments.flatMap Quantity.components
  match ty with
  | .vector kind width =>
    match soleScalar? arguments with
    | some s => some (.vector (List.replicate width.toNat (A.convert kind s)))
    | none =>
      if width.toNat ≤ components.length then
        some (.vector ((components.take width.toNat).map (A.convert kind)))
      else none
  | .matrix columns =>
    let size := columns.toNat
    match soleScalar? arguments, soleMatrix? arguments with
    | some s, _ =>
      some (squareMatrix size fun column row => if column = row then A.asFloat s else A.float 0)
    | none, some source =>
      some (squareMatrix size fun column row =>
        (source[column]?.bind (·[row]?)).getD (A.identityEntry column row))
    | none, none =>
      if size * size ≤ components.length then
        some (.matrix ((List.range size).map fun column =>
          ((components.drop (column * size)).take size).map A.asFloat))
      else none
  | .sampler _ => none

/-- Selected components. -/
def selectContent : Content F I → String → Option (Content F I)
  | .single (.vector components), channels =>
    (channelIndices components.length channels).map fun indices =>
      .single (.vector (indices.filterMap (components[·]?)))
  | _, _ => none

/-- An element. -/
def elementContent : Content F I → Nat → Option (Content F I)
  | .array elements, i => elements[i]?.map .single
  | .single (.vector components), i => components[i]?.map fun s => .single (.vector [s])
  | .single (.matrix columns), i => columns[i]?.map fun column => .single (.vector (column.map .float))
  | .single (.sampler ..), _ => none

/-- What one value stands for. -/
def Content.single? : Content F I → Option (Quantity F I)
  | single quantity => some quantity
  | array _ => none

mutual

/-- What an expression stands for, where variables stand for something. -/
def Term.eval (A : Arithmetic F I) (env : String → Option (Content F I)) :
    Term → Option (Content F I)
  | .name text => env text
  | .number written => some (.single (.vector [A.number written]))
  | .select source channels => (source.eval A env).bind (selectContent · channels)
  | .element source i => (source.eval A env).bind (elementContent · i)
  | .construct ty arguments =>
    (Term.evals A env arguments).bind fun quantities => (A.construct ty quantities).map .single

/-- What arguments stand for. -/
def Term.evals (A : Arithmetic F I) (env : String → Option (Content F I)) :
    List Term → Option (List (Quantity F I))
  | [] => some []
  | argument :: rest =>
    ((argument.eval A env).bind (·.single?)).bind fun quantity =>
      (Term.evals A env rest).map (quantity :: ·)

end

/-- A value of a type. -/
def Quantity.Fits : Quantity F I → ValueType → Prop
  | vector components, .vector kind width =>
    components.length = width.toNat ∧ ∀ s ∈ components, s.kind = kind
  | matrix columns, .matrix size =>
    columns.length = size.toNat ∧ ∀ column ∈ columns, column.length = size.toNat
  | sampler dim _, .sampler dim' => dim = dim'
  | _, _ => False

/-- Contents of a type. -/
def Content.Fits : Content F I → TermType → Prop
  | single quantity, .single ty => quantity.Fits ty
  | array elements, .array ty len => elements.length = len ∧ ∀ element ∈ elements, element.Fits ty
  | _, _ => False

/-- All variables of a scope stand for something of their type. -/
def Scope.Holds (scope : Scope) (env : String → Option (Content F I)) : Prop :=
  ∀ text ty, scope.types text = some ty → ∃ content, env text = some content ∧ content.Fits ty

/-! ## Typed Expressions Have a Meaning -/

variable {A : Arithmetic F I} {env : String → Option (Content F I)} {scope : Scope}

theorem kind_convert (kind : ScalarKind) (s : Scalar F I) : (A.convert kind s).kind = kind := by
  cases kind <;> cases s <;> rfl

/-- A scalar that is of the kind already is not changed. -/
theorem convert_of_kind {kind : ScalarKind} {s : Scalar F I} (h : s.kind = kind) :
    A.convert kind s = s := by
  cases s <;> cases h <;> rfl

theorem Quantity.Fits.exists_vector {q : Quantity F I} {kind : ScalarKind} {width : Width}
    (h : q.Fits (.vector kind width)) :
    ∃ components, q = .vector components ∧ components.length = width.toNat ∧
      ∀ s ∈ components, s.kind = kind := by
  cases q with
  | vector components => exact ⟨components, rfl, h.1, h.2⟩
  | matrix columns => cases h
  | sampler dim unit => cases h

theorem Quantity.Fits.exists_matrix {q : Quantity F I} {size : Columns} (h : q.Fits (.matrix size)) :
    ∃ columns, q = .matrix columns ∧ columns.length = size.toNat ∧
      ∀ column ∈ columns, column.length = size.toNat := by
  cases q with
  | vector components => cases h
  | matrix columns => exact ⟨columns, rfl, h.1, h.2⟩
  | sampler dim unit => cases h

theorem Quantity.Fits.length_components {q : Quantity F I} {ty : ValueType} (h : q.Fits ty) :
    q.components.length = componentCount ty := by
  cases ty with
  | vector kind width =>
    obtain ⟨components, rfl, hlength, -⟩ := h.exists_vector
    exact hlength
  | matrix size =>
    obtain ⟨columns, rfl, hlength, hcolumns⟩ := h.exists_matrix
    have hlengths : columns.map List.length = List.replicate size.toNat size.toNat :=
      List.eq_replicate_iff.2 ⟨by simpa using hlength, by simpa using hcolumns⟩
    rw [components, List.length_map, List.length_flatten, hlengths, List.sum_replicate_nat]
    rfl
  | sampler dim =>
    cases q with
    | sampler dim' unit => rfl
    | vector components => cases h
    | matrix columns => cases h

theorem Content.Fits.exists_single {content : Content F I} {ty : ValueType}
    (h : content.Fits (.single ty)) : ∃ q, content = .single q ∧ q.Fits ty := by
  cases content with
  | single q => exact ⟨q, rfl, h⟩
  | array elements => cases h

theorem Content.Fits.exists_array {content : Content F I} {ty : ValueType} {len : Nat}
    (h : content.Fits (.array ty len)) :
    ∃ elements, content = .array elements ∧ elements.length = len ∧
      ∀ element ∈ elements, element.Fits ty := by
  cases content with
  | single q => cases h
  | array elements => exact ⟨elements, rfl, h.1, h.2⟩

theorem squareMatrix_fits (size : Columns) (entry : Nat → Nat → F) :
    (squareMatrix size.toNat entry : Quantity F I).Fits (.matrix size) := by
  refine ⟨by simp, fun column hcolumn => ?_⟩
  obtain ⟨i, -, rfl⟩ := List.mem_map.1 hcolumn
  simp

/-- Channels select among the components that there are, one component for each channel. -/
theorem channelIndices_spec {width : Nat} {channels : String} {indices : List Nat}
    (h : channelIndices width channels = some indices) :
    indices.length = channels.toList.length ∧ ∀ i ∈ indices, i < width := by
  obtain ⟨names, hnames, rfl⟩ := Option.map_eq_some_iff.1 h
  have hall : channels.toList.all (names.take width).contains = true := by
    simpa using List.find?_some hnames
  refine ⟨List.length_map _, fun i hi => ?_⟩
  obtain ⟨c, hc, rfl⟩ := List.mem_map.1 hi
  have hmem : c ∈ names.take width := by
    simpa using List.all_eq_true.1 hall c hc
  -- The place among all names is the place among those that there are components for.
  rw [← List.take_append_drop width names, List.idxOf_append, if_pos hmem]
  exact Nat.lt_of_lt_of_le (List.idxOf_lt_length_of_mem hmem) (List.length_take_le width names)

theorem exists_selectContent {content : Content F I} {ty ty' : TermType} {scalars : Bool}
    {channels : String} (hfits : content.Fits ty) (h : selectType scalars ty channels = some ty') :
    ∃ content', selectContent content channels = some content' ∧ content'.Fits ty' := by
  rcases ty with (⟨kind, width⟩ | _ | _) | _
  · obtain ⟨-, h⟩ := Option.ite_none_left_eq_some.1 h
    obtain ⟨selected, hselected, rfl⟩ := Option.map_eq_some_iff.1 h
    obtain ⟨indices, hindices, hwidth⟩ := Option.bind_eq_some_iff.1 hselected
    obtain ⟨q, rfl, hq⟩ := hfits.exists_single
    obtain ⟨components, rfl, hlength, hkind⟩ := hq.exists_vector
    rw [← hlength] at hindices
    have hlt := (channelIndices_spec hindices).2
    refine ⟨.single (.vector (indices.filterMap (components[·]?))), ?_, ?_, fun s hs => ?_⟩
    · rw [selectContent, hindices]
      rfl
    · -- Each index finds a component, so that none is lost.
      rw [List.filterMap_length_eq_length.2 fun i hi => by simpa using hlt i hi]
      exact (Width.toNat_of_ofNat? hwidth).symm
    · obtain ⟨i, -, hi⟩ := List.mem_filterMap.1 hs
      exact hkind s (List.mem_of_getElem? hi)
  all_goals cases h

theorem exists_elementContent {content : Content F I} {ty ty' : TermType} {i : Nat}
    (hfits : content.Fits ty) (h : elementType ty i = some ty') :
    ∃ content', elementContent content i = some content' ∧ content'.Fits ty' := by
  rcases ty with (⟨kind, width⟩ | size | dim) | ⟨ty, len⟩
  · -- A component of a vector.
    obtain ⟨⟨-, hi⟩, htype⟩ := Option.ite_none_right_eq_some.1 h
    cases htype
    obtain ⟨q, rfl, hq⟩ := hfits.exists_single
    obtain ⟨components, rfl, hlength, hkind⟩ := hq.exists_vector
    rw [← hlength] at hi
    refine ⟨.single (.vector [components[i]]), ?_, rfl, fun s hs => ?_⟩
    · rw [elementContent, List.getElem?_eq_getElem hi]
      rfl
    · rw [List.mem_singleton.1 hs]
      exact hkind _ (List.getElem_mem hi)
  · -- A column of a matrix.
    obtain ⟨hi, htype⟩ := Option.ite_none_right_eq_some.1 h
    cases htype
    obtain ⟨q, rfl, hq⟩ := hfits.exists_single
    obtain ⟨columns, rfl, hlength, hcolumns⟩ := hq.exists_matrix
    rw [← hlength] at hi
    refine ⟨.single (.vector (columns[i].map .float)), ?_, ?_, fun s hs => ?_⟩
    · rw [elementContent, List.getElem?_eq_getElem hi]
      rfl
    · rw [List.length_map, hcolumns _ (List.getElem_mem hi)]
      cases size <;> rfl
    · obtain ⟨x, -, rfl⟩ := List.mem_map.1 hs
      rfl
  · cases h
  · -- An element of an array.
    obtain ⟨hi, htype⟩ := Option.ite_none_right_eq_some.1 h
    cases htype
    obtain ⟨elements, rfl, hlength, helements⟩ := hfits.exists_array
    rw [← hlength] at hi
    refine ⟨.single elements[i], ?_, helements _ (List.getElem_mem hi)⟩
    rw [elementContent, List.getElem?_eq_getElem hi]
    rfl

section Constructors

variable {quantities : List (Quantity F I)} {types : List ValueType}

/-- Arguments of the given types. -/
abbrev AllFit (quantities : List (Quantity F I)) (types : List ValueType) : Prop :=
  List.Forall₂ Quantity.Fits quantities types

theorem AllFit.exists_soleScalar (h : AllFit quantities types) (hsole : isSoleScalar types = true) :
    ∃ s, soleScalar? quantities = some s := by
  unfold isSoleScalar at hsole
  split at hsole
  · rename_i kind
    obtain ⟨q, rest, hq, hnil, rfl⟩ := List.forall₂_cons_right_iff.1 h
    cases hnil
    obtain ⟨components, rfl, hlength, -⟩ := hq.exists_vector
    obtain ⟨s, rfl⟩ := List.length_eq_one_iff.1 hlength
    exact ⟨s, rfl⟩
  · cases hsole

theorem AllFit.exists_soleMatrix (h : AllFit quantities types) (hsole : isSoleMatrix types = true) :
    ∃ columns, soleScalar? quantities = none ∧ soleMatrix? quantities = some columns := by
  unfold isSoleMatrix at hsole
  split at hsole
  · rename_i size
    obtain ⟨q, rest, hq, hnil, rfl⟩ := List.forall₂_cons_right_iff.1 h
    cases hnil
    obtain ⟨columns, rfl, -, -⟩ := hq.exists_matrix
    exact ⟨columns, rfl, rfl⟩
  · cases hsole

theorem AllFit.length_components (h : AllFit quantities types) :
    (quantities.flatMap Quantity.components).length = (types.map componentCount).sum := by
  induction h with
  | nil => rfl
  | cons hfirst _ ih =>
    rw [List.flatMap_cons, List.length_append, List.map_cons, List.sum_cons, ih,
      hfirst.length_components]

theorem le_of_supplies {needed : Nat} (h : supplies needed types = true) :
    needed ≤ (types.map componentCount).sum := by
  simp only [supplies, Bool.and_eq_true, decide_eq_true_eq] at h
  exact h.2

/-- What the types supply, the values have. -/
theorem AllFit.le_length_components {needed : Nat} (h : AllFit quantities types)
    (hsupplies : supplies needed types = true) :
    needed ≤ (quantities.flatMap Quantity.components).length := by
  rw [h.length_components]
  exact le_of_supplies hsupplies

theorem AllFit.exists_construct_vector {kind : ScalarKind} {width : Width}
    (h : AllFit quantities types) (hconstructible : constructible (.vector kind width) types = true) :
    ∃ q, A.construct (.vector kind width) quantities = some q ∧ q.Fits (.vector kind width) := by
  simp only [Arithmetic.construct]
  cases hsole : soleScalar? quantities with
  | some s =>
    refine ⟨_, rfl, List.length_replicate, fun t ht => ?_⟩
    rw [List.eq_of_mem_replicate ht]
    exact kind_convert kind s
  | none =>
    have hsupplies : supplies width.toNat types = true := by
      -- A sole scalar among the types is one among the values, and there is none.
      rcases (Bool.or_eq_true _ _).mp hconstructible with hscalar | hsupplies
      · obtain ⟨s, hs⟩ := h.exists_soleScalar hscalar
        rw [hsole] at hs
        cases hs
      · exact hsupplies
    have henough := h.le_length_components hsupplies
    simp only [if_pos henough]
    refine ⟨_, rfl, ?_, fun t ht => ?_⟩
    · rw [List.length_map, List.length_take, Nat.min_eq_left henough]
    · obtain ⟨s, -, rfl⟩ := List.mem_map.1 ht
      exact kind_convert kind s

theorem AllFit.exists_construct_matrix {size : Columns} (h : AllFit quantities types)
    (hconstructible : constructible (.matrix size) types = true) :
    ∃ q, A.construct (.matrix size) quantities = some q ∧ q.Fits (.matrix size) := by
  simp only [Arithmetic.construct]
  cases hscalar : soleScalar? quantities with
  | some s => exact ⟨_, rfl, squareMatrix_fits size _⟩
  | none =>
    cases hmatrix : soleMatrix? quantities with
    | some source => exact ⟨_, rfl, squareMatrix_fits size _⟩
    | none =>
      have hsupplies : supplies (size.toNat * size.toNat) types = true := by
        simp only [constructible, Bool.or_eq_true, Bool.and_eq_true] at hconstructible
        rcases hconstructible with (hsole | hsole) | ⟨-, hsupplies⟩
        · obtain ⟨s, hs⟩ := h.exists_soleScalar hsole
          rw [hscalar] at hs
          cases hs
        · obtain ⟨columns, -, hcolumns⟩ := h.exists_soleMatrix hsole
          rw [hmatrix] at hcolumns
          cases hcolumns
        · exact hsupplies
      have henough := h.le_length_components hsupplies
      simp only [if_pos henough]
      refine ⟨_, rfl, by simp, fun column hcolumn => ?_⟩
      obtain ⟨i, hi, rfl⟩ := List.mem_map.1 hcolumn
      -- The last component of the column is among those that there are.
      have hlast : i * size.toNat + size.toNat ≤ size.toNat * size.toNat := by
        rw [← Nat.succ_mul]
        exact Nat.mul_le_mul_right _ (List.mem_range.1 hi)
      rw [List.length_map, List.length_take, List.length_drop]
      omega

/-- A constructor that takes arguments of these types makes a value of its type. -/
theorem AllFit.exists_construct {ty : ValueType} (h : AllFit quantities types)
    (hconstructible : constructible ty types = true) :
    ∃ q, A.construct ty quantities = some q ∧ q.Fits ty := by
  cases ty with
  | vector kind width => exact h.exists_construct_vector hconstructible
  | matrix size => exact h.exists_construct_matrix hconstructible
  | sampler dim => cases hconstructible

end Constructors

theorem exists_evals {arguments : List Term} {types : List ValueType}
    (harguments : ∀ argument ∈ arguments, ∀ ty, argument.typeIn scope = some ty →
      ∃ content, argument.eval A env = some content ∧ content.Fits ty)
    (h : Term.typesIn scope arguments = some types) :
    ∃ quantities, Term.evals A env arguments = some quantities ∧ AllFit quantities types := by
  induction arguments generalizing types with
  | nil =>
    rw [Term.typesIn] at h
    cases h
    exact ⟨[], by rw [Term.evals], .nil⟩
  | cons argument rest ih =>
    obtain ⟨hargument, hrest⟩ := List.forall_mem_cons.1 harguments
    rw [Term.typesIn] at h
    obtain ⟨ty, hty, hmap⟩ := Option.bind_eq_some_iff.1 h
    obtain ⟨others, hothers, rfl⟩ := Option.map_eq_some_iff.1 hmap
    obtain ⟨termType, htype, hsingle⟩ := Option.bind_eq_some_iff.1 hty
    cases termType with
    | array elementType len => cases hsingle
    | single first =>
      cases hsingle
      obtain ⟨content, heval, hfits⟩ := hargument _ htype
      obtain ⟨q, rfl, hq⟩ := hfits.exists_single
      obtain ⟨quantities, hquantities, hall⟩ := ih hrest hothers
      refine ⟨q :: quantities, ?_, .cons hq hall⟩
      rw [Term.evals, heval, hquantities]
      rfl

/-- An expression with a type has a meaning of that type. -/
theorem exists_eval_of_typeIn {t : Term} {ty : TermType} (henv : scope.Holds env)
    (h : t.typeIn scope = some ty) : ∃ content, t.eval A env = some content ∧ content.Fits ty := by
  induction t generalizing ty with
  | name text =>
    rw [Term.typeIn] at h
    rw [Term.eval]
    exact henv text ty h
  | number written =>
    rw [Term.typeIn] at h
    cases h
    refine ⟨.single (.vector [A.number written]), by rw [Term.eval], rfl, fun s hs => ?_⟩
    rw [List.mem_singleton.1 hs]
    unfold Arithmetic.number
    cases written.fraction <;> rfl
  | select source channels ih =>
    rw [Term.typeIn] at h
    obtain ⟨sourceType, hsource, hselect⟩ := Option.bind_eq_some_iff.1 h
    obtain ⟨content, heval, hfits⟩ := ih hsource
    rw [Term.eval, heval]
    exact exists_selectContent hfits hselect
  | element source index ih =>
    rw [Term.typeIn] at h
    obtain ⟨sourceType, hsource, helement⟩ := Option.bind_eq_some_iff.1 h
    obtain ⟨content, heval, hfits⟩ := ih hsource
    rw [Term.eval, heval]
    exact exists_elementContent hfits helement
  | construct constructed arguments ih =>
    rw [Term.typeIn] at h
    obtain ⟨types, htypes, hif⟩ := Option.bind_eq_some_iff.1 h
    obtain ⟨hconstructible, hty⟩ := Option.ite_none_right_eq_some.1 hif
    cases hty
    obtain ⟨quantities, hevals, hall⟩ :=
      exists_evals (fun argument hargument ty => ih argument hargument) htypes
    obtain ⟨q, hq, hfits⟩ := hall.exists_construct hconstructible
    refine ⟨.single q, ?_, hfits⟩
    rw [Term.eval, hevals, Option.bind_some, hq]
    rfl

end Evaluation

/-! ## Statements -/

/-- Whether something can be assigned to the expression. -/
def Term.isPlace : Term → Bool
  | name _ => true
  | select source _ => source.isPlace
  | element source _ => source.isPlace
  | _ => false

/-- A statement gives a value of the type that its place or its variable has. -/
def Statement.WellTyped (scope : Scope) : Statement → Prop
  | assign place value =>
    place.isPlace = true ∧ (place.typeIn scope).isSome ∧ value.typeIn scope = place.typeIn scope
  | declare var value => value.typeIn scope = some (variableType var)

/-- A place with a type is assigned what has that type. -/
theorem wellTyped_assign_iff {scope : Scope} {place value : Term} {ty : TermType}
    (hplace : place.isPlace = true) (hty : place.typeIn scope = some ty) :
    (Statement.assign place value).WellTyped scope ↔ value.typeIn scope = some ty := by
  show (_ ∧ _ ∧ _) ↔ _
  rw [hty]
  exact ⟨fun h => h.2.2, fun h => ⟨hplace, rfl, h⟩⟩

instance (scope : Scope) (statement : Statement) : Decidable (statement.WellTyped scope) :=
  match statement with
  | .assign place value =>
    inferInstanceAs (Decidable (place.isPlace = true ∧ (place.typeIn scope).isSome ∧
      value.typeIn scope = place.typeIn scope))
  | .declare var value => inferInstanceAs (Decidable (value.typeIn scope = some (variableType var)))

end ShaderWeave.Source
