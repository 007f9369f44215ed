import ShaderWeave.Proofs.ExpressionTyping
import ShaderWeave.Value

/-!
# What a Read Means

A value is read at a type by an expression that is made from its name. The expression is followed from
its tree to its text and back: the text is read as an expression of exactly the type that was asked for,
and its components are those of the value, converted if need be, with the missing ones filled.

## Main definitions

* `Coercible`: the types between which values are read.
* `readComponent`: what a component of a read is.

## Main results

* `ReadsAt`: a printed expression is read back with a type, with a rule for each form of a read.
* `ReadsAt.reshapes`: the components after a change of width.
* `read_meaning`: the type and the components of every read.
-/

namespace ShaderWeave

open Source

/-! ## The Components of a Read -/

/-- Whether values of a type are read at a type: the same type, another scalar or vector, or another
matrix. -/
def Coercible (ty target : ValueType) : Prop :=
  ty = target ∨ (ty.scalarKind.isSome ∧ target.scalarKind.isSome) ∨
    (ty.matrixColumns.isSome ∧ target.matrixColumns.isSome)

instance (ty target : ValueType) : Decidable (Coercible ty target) :=
  inferInstanceAs (Decidable (_ ∨ _))

theorem exists_eq_vector {ty : ValueType} (h : ty.scalarKind.isSome) :
    ∃ kind width, ty = .vector kind width := by
  cases ty with
  | vector kind width => exact ⟨kind, width, rfl⟩
  | matrix size => cases h
  | sampler dim => cases h

theorem exists_eq_matrix {ty : ValueType} (h : ty.matrixColumns.isSome) :
    ∃ size, ty = .matrix size := by
  cases ty with
  | vector kind width => cases h
  | matrix size => exact ⟨size, rfl⟩
  | sampler dim => cases h

section Components

variable {F I : Type}

/-- Zero or one of a kind. -/
def Source.Arithmetic.fill (A : Arithmetic F I) : ScalarKind → Fill → Scalar F I
  | .float, .zero => .float (A.float 0)
  | .float, .one => .float (A.float 1)
  | .int, .zero => .int (A.int 0)
  | .int, .one => .int (A.int 1)

/-- A component that the source does not have: zero, but one for the fourth component of a point. -/
def addedComponent (A : Arithmetic F I) (kind : ScalarKind) (widening : Widening) (i : Nat) :
    Scalar F I :=
  if i = 3 ∧ widening = .point then A.fill kind .one else A.fill kind .zero

/-- A component of a scalar or vector that is read at a kind. A scalar is spread over the first three
components. -/
def readComponent (A : Arithmetic F I) (kind : ScalarKind) (widening : Widening)
    (source : List (Scalar F I)) (i : Nat) : Scalar F I :=
  match source[i]? with
  | some s => A.convert kind s
  | none =>
    match source with
    | [s] => if i < 3 then A.convert kind s else addedComponent A kind widening i
    | _ => addedComponent A kind widening i

variable {A : Arithmetic F I} {kind : ScalarKind} {widening : Widening} {source : List (Scalar F I)}

theorem readComponent_of_getElem? {i : Nat} {s : Scalar F I} (h : source[i]? = some s) :
    readComponent A kind widening source i = A.convert kind s := by
  unfold readComponent
  rw [h]

theorem readComponent_singleton {i : Nat} (s : Scalar F I) (hi : i < 3) :
    readComponent A kind widening [s] i = A.convert kind s := by
  unfold readComponent
  cases i with
  | zero => rfl
  | succ i => exact if_pos hi

theorem readComponent_of_le {i : Nat} (hle : source.length ≤ i)
    (hadded : source.length ≠ 1 ∨ 3 ≤ i) :
    readComponent A kind widening source i = addedComponent A kind widening i := by
  unfold readComponent
  rw [List.getElem?_eq_none hle]
  rcases source with _ | ⟨s, _ | ⟨s', rest⟩⟩
  · rfl
  · rcases hadded with hlength | hi
    · exact absurd rfl hlength
    · exact if_neg (Nat.not_lt.2 hi)
  · rfl

/-- The components that a source has are read as they are, at its own kind. -/
theorem map_readComponent_take {n : Nat} (hkind : ∀ s ∈ source, s.kind = kind)
    (hn : n ≤ source.length) :
    (List.range n).map (readComponent A kind widening source) = source.take n := by
  apply List.ext_getElem?
  intro i
  by_cases hi : i < n
  · have hget : source[i]? = some source[i] := List.getElem?_eq_getElem (by omega)
    rw [List.getElem?_map, List.getElem?_range hi, Option.map_some, readComponent_of_getElem? hget,
      convert_of_kind (hkind _ (List.getElem_mem _)), List.getElem?_take_of_lt hi, hget]
  · rw [List.getElem?_eq_none (by simpa using Nat.not_lt.1 hi),
      List.getElem?_eq_none (Nat.le_trans (List.length_take_le n source) (Nat.not_lt.1 hi))]

/-- The components that a vector does not have are added. -/
theorem map_readComponent_append {n : Nat} (hkind : ∀ s ∈ source, s.kind = kind)
    (hvector : source.length ≠ 1) (hn : source.length ≤ n) :
    (List.range n).map (readComponent A kind widening source) =
      source ++ (List.range' source.length (n - source.length)).map
        (addedComponent A kind widening) := by
  have hrange : List.range n =
      List.range source.length ++ List.range' source.length (n - source.length) := by
    have happend : List.range' 0 source.length ++ List.range' (0 + source.length) (n - source.length) =
      List.range' 0 (source.length + (n - source.length)) := List.range'_append_1
    rw [Nat.zero_add, Nat.add_sub_cancel' hn] at happend
    rw [List.range_eq_range', List.range_eq_range', happend]
  rw [hrange, List.map_append, map_readComponent_take hkind (Nat.le_refl _), List.take_length]
  refine congrArg (source ++ ·) (List.map_congr_left fun i hi => ?_)
  exact readComponent_of_le (List.mem_range'_1.1 hi).1 (.inl hvector)

/-- A scalar is repeated in up to three components. -/
theorem map_readComponent_replicate {n : Nat} (s : Scalar F I) (hn : n ≤ 3) :
    (List.range n).map (readComponent A kind widening [s]) =
      List.replicate n (A.convert kind s) := by
  apply List.eq_replicate_iff.2
  refine ⟨by simp, fun component hcomponent => ?_⟩
  obtain ⟨i, hi, rfl⟩ := List.mem_map.1 hcomponent
  exact readComponent_singleton s (Nat.lt_of_lt_of_le (List.mem_range.1 hi) hn)

/-- The fill that a read writes for a component is what the component is to be. -/
theorem fill_eq_addedComponent (i : Nat) :
    A.fill kind (if i = 3 then widening.fourth else .zero) = addedComponent A kind widening i := by
  unfold addedComponent
  by_cases hi : i = 3
  · cases widening <;> simp [hi, Widening.fourth]
  · simp [hi]

theorem convert_fill (kind target : ScalarKind) (f : Fill) :
    A.convert target (A.fill kind f) = A.fill target f := by
  cases kind <;> cases target <;> cases f <;>
    simp [Arithmetic.convert, Arithmetic.fill, Arithmetic.asFloat, A.toFloat_zero, A.toFloat_one,
      A.toInt_zero, A.toInt_one]

theorem convert_addedComponent (target : ScalarKind) (i : Nat) :
    A.convert target (addedComponent A kind widening i) = addedComponent A target widening i := by
  unfold addedComponent
  split <;> exact convert_fill kind target _

/-- Converting what is read at the kind of the source is the same as reading at the other kind. -/
theorem convert_readComponent (hkind : ∀ s ∈ source, s.kind = kind) (target : ScalarKind) (i : Nat) :
    A.convert target (readComponent A kind widening source i) =
      readComponent A target widening source i := by
  by_cases hi : i < source.length
  · have hget : source[i]? = some source[i] := List.getElem?_eq_getElem hi
    rw [readComponent_of_getElem? hget, readComponent_of_getElem? hget,
      convert_of_kind (hkind _ (List.getElem_mem hi))]
  · have hle : source.length ≤ i := Nat.not_lt.1 hi
    by_cases hspread : source.length = 1 ∧ i < 3
    · obtain ⟨s, rfl⟩ := List.length_eq_one_iff.1 hspread.1
      rw [readComponent_singleton s hspread.2, readComponent_singleton s hspread.2,
        convert_of_kind (hkind s (List.mem_singleton.2 rfl))]
    · have hadded : source.length ≠ 1 ∨ 3 ≤ i := by omega
      rw [readComponent_of_le hle hadded, readComponent_of_le hle hadded, convert_addedComponent]

end Components

/-! ## Reading a Read Back -/

/-- How an added component is written. -/
def Fill.written : ScalarKind → Fill → WrittenNumber
  | .float, zero => ⟨false, "0", some "0"⟩
  | .float, one => ⟨false, "1", some "0"⟩
  | .int, zero => ⟨false, "0", none⟩
  | .int, one => ⟨false, "1", none⟩

/-- The tree of an added component. -/
def Fill.term (kind : ScalarKind) (f : Fill) : Term :=
  .number (f.written kind)

theorem readsTerm_literal (kind : ScalarKind) (f : Fill) :
    ReadsTerm (f.literal kind) (f.term kind) := by
  apply readsTerm_iff.2
  cases kind <;> cases f <;> rfl

theorem number_written {F I : Type} (A : Arithmetic F I) (kind : ScalarKind) (f : Fill) :
    A.number (f.written kind) = A.fill kind f := by
  cases kind <;> cases f <;> rfl

theorem typesIn_fills (scope : Scope) (kind : ScalarKind) (fills : List Fill) :
    Term.typesIn scope (fills.map (Fill.term kind)) =
      some (List.replicate fills.length (.vector kind .one)) := by
  induction fills with
  | nil => rw [List.map_nil, Term.typesIn]; rfl
  | cons f fills ih =>
    have hkind : (if (f.written kind).fraction.isSome then ScalarKind.float else .int) = kind := by
      cases kind <;> cases f <;> rfl
    rw [List.map_cons, Term.typesIn, ih, Fill.term, Term.typeIn, hkind]
    rfl

theorem evals_fills {F I : Type} (A : Arithmetic F I) (env : String → Option (Content F I))
    (kind : ScalarKind) (fills : List Fill) :
    Term.evals A env (fills.map (Fill.term kind)) =
      some (fills.map fun f => .vector [A.fill kind f]) := by
  induction fills with
  | nil => rw [List.map_nil, Term.evals]; rfl
  | cons f fills ih =>
    rw [List.map_cons, Term.evals, ih, Fill.term, Term.eval, number_written]
    rfl

/-- The text of a read is read as a tree with a type. -/
structure ReadsAt (scope : Scope) (expr : Expr) (ty : ValueType) (t : Term) : Prop where
  /-- The text is read as the tree, wherever it stands. -/
  reads : ReadsTerm expr.render t
  /-- The tree has the type. -/
  typed : t.typeIn scope = some (.single ty)

section Rules

variable {scope : Scope} {source : Expr} {ty target : ValueType} {t : Term} {kind : ScalarKind}

/-- The channels of the leading components are the first ones. -/
theorem channelIndices_leading {width narrower : Width} (h : narrower.toNat < width.toNat) :
    channelIndices width.toNat (Expr.leadingChannels narrower) = some (List.range narrower.toNat) := by
  revert h
  cases width <;> cases narrower <;> decide

/-- A vector is no number, so its components can be selected. -/
theorem ReadsAt.leading {width narrower : Width} (h : ReadsAt scope source (.vector kind width) t)
    (hlt : narrower.toNat < width.toNat) :
    ReadsAt scope (.leading source narrower) (.vector kind narrower)
      (.select t (Expr.leadingChannels narrower)) := by
  have hwidth : width ≠ .one := by
    rintro rfl
    cases narrower <;> exact absurd hlt (by decide)
  refine ⟨?_, ?_⟩
  · have hwhole : t.isWhole = false := by
      apply Bool.eq_false_iff.2
      intro hnumber
      have htyped := h.typed
      rw [Term.typeIn_of_isWhole scope hnumber] at htyped
      cases htyped
      exact hwidth rfl
    have hword : IsWord (Expr.leadingChannels narrower) := by
      cases narrower <;> decide
    have hrender : (Expr.leading source narrower).render =
        source.render ++ ("." ++ Expr.leadingChannels narrower) := String.append_assoc
    rw [hrender]
    exact h.reads.select hwhole hword (by cases narrower <;> rfl)
  · rw [Term.typeIn, h.typed, Option.bind_some, selectType, if_neg (by simp [hwidth]),
      channelIndices_leading hlt]
    simp

/-- A constructor of what is read already. -/
theorem ReadsAt.construct {fills : List Fill} (h : ReadsAt scope source ty t)
    (hkind : target.scalarKind.getD .float = kind)
    (hconstructible : constructible target (ty :: List.replicate fills.length (.vector kind .one))
      = true) :
    ReadsAt scope (.construct target source fills) target
      (.construct target (t :: fills.map (Fill.term kind))) := by
  refine ⟨?_, ?_⟩
  · have hothers : ∀ other ∈ fills.map fun f => (f.literal kind, f.term kind),
        ReadsTerm other.1 other.2 := by
      intro other hother
      obtain ⟨f, -, rfl⟩ := List.mem_map.1 hother
      exact readsTerm_literal kind f
    have hreads := h.reads.construct hothers target
    rw [List.map_map, List.map_map] at hreads
    have hrender : (Expr.construct target source fills).render =
        target.glsl ++ ("(" ++ (source.render ++
          (argumentTexts (fills.map fun f => f.literal kind) ++ ")"))) := by
      rw [Expr.render, hkind, argumentTexts, List.map_map]
      simp only [String.append_assoc]
      rfl
    rw [hrender]
    exact hreads
  · rw [Term.typeIn, Term.typesIn, h.typed, typesIn_fills]
    exact if_pos hconstructible

end Rules

/-- The tree of a vector that is made of an expression and of added components. -/
def vectorTerm (kind : ScalarKind) (width : Width) (t : Term) (fills : List Fill) : Term :=
  .construct (.vector kind width) (t :: fills.map (Fill.term kind))

theorem ReadsAt.vector {scope : Scope} {source : Expr} {ty : ValueType} {t : Term} {fills : List Fill}
    {kind : ScalarKind} {width : Width} (h : ReadsAt scope source ty t)
    (hconstructible : constructible (.vector kind width)
      (ty :: List.replicate fills.length (.vector kind .one)) = true) :
    ReadsAt scope (.construct (.vector kind width) source fills) (.vector kind width)
      (vectorTerm kind width t fills) :=
  h.construct rfl hconstructible

/-! ## Evaluating a Read -/

section Evaluation

variable {F I : Type} {A : Arithmetic F I} {env : String → Option (Content F I)} {t : Term}
  {kind : ScalarKind} {components : List (Scalar F I)}

theorem filterMap_range_getElem? (components : List (Scalar F I)) (n : Nat) :
    (List.range n).filterMap (components[·]?) = components.take n := by
  induction n with
  | zero => rfl
  | succ n ih =>
    rw [List.range_succ, List.filterMap_append, ih, List.take_add_one, List.filterMap_cons,
      List.filterMap_nil]
    cases components[n]? <;> rfl

theorem eval_leading {width narrower : Width}
    (h : t.eval A env = some (.single (.vector components)))
    (hlength : components.length = width.toNat) (hlt : narrower.toNat < width.toNat) :
    (Term.select t (Expr.leadingChannels narrower)).eval A env =
      some (.single (.vector (components.take narrower.toNat))) := by
  rw [Term.eval, h, Option.bind_some, selectContent, hlength, channelIndices_leading hlt,
    Option.map_some, filterMap_range_getElem?]

theorem eval_vectorTerm {width : Width} {q : Quantity F I} (fills : List Fill)
    (h : t.eval A env = some (.single q)) :
    (vectorTerm kind width t fills).eval A env =
      (A.construct (.vector kind width)
        (q :: (fills.map (A.fill kind)).map fun s => .vector [s])).map .single := by
  rw [vectorTerm, Term.eval, Term.evals, h, evals_fills, List.map_map]
  rfl

/-- A scalar alone is repeated. -/
theorem eval_vectorTerm_scalar {s : Scalar F I} (width : Width)
    (h : t.eval A env = some (.single (.vector [s]))) :
    (vectorTerm kind width t []).eval A env =
      some (.single (.vector (List.replicate width.toNat (A.convert kind s)))) := by
  rw [eval_vectorTerm [] h]
  rfl

theorem construct_vector {width : Width} {added : List (Scalar F I)}
    (hlength : components.length + added.length = width.toNat) :
    A.construct (.vector kind width) (.vector components :: added.map fun s => .vector [s]) =
      some (.vector ((components ++ added).map (A.convert kind))) := by
  have hcomponents : (Quantity.vector components :: added.map fun s => .vector [s]).flatMap
      Quantity.components = components ++ added := by
    rw [List.flatMap_cons, List.flatMap_map]
    exact congrArg (components ++ ·) (List.flatMap_singleton' added)
  simp only [Arithmetic.construct, hcomponents]
  cases hsole : soleScalar? (.vector components :: added.map fun s => .vector [s]) with
  | none =>
    simp only
    have hall : (components ++ added).length = width.toNat := by
      rw [List.length_append, hlength]
    rw [if_pos (Nat.le_of_eq hall.symm), List.take_of_length_le (Nat.le_of_eq hall)]
  | some s =>
    -- The only argument is a scalar, so one component is needed.
    have hone : components = [s] ∧ added = [] := by
      unfold soleScalar? at hsole
      split at hsole
      · rename_i heq
        cases hsole
        obtain ⟨hfirst, hrest⟩ := List.cons.inj heq
        exact ⟨Quantity.vector.inj hfirst, List.map_eq_nil_iff.1 hrest⟩
      · cases hsole
    obtain ⟨rfl, rfl⟩ := hone
    have hwidth : width.toNat = 1 := hlength.symm
    simp only [hwidth]
    rfl

/-- Where there are as many components as are needed, each is converted. -/
theorem eval_vectorTerm_components {width : Width} {fills : List Fill}
    (h : t.eval A env = some (.single (.vector components)))
    (hlength : components.length + fills.length = width.toNat) :
    (vectorTerm kind width t fills).eval A env = some (.single (.vector
      (components.map (A.convert kind) ++ fills.map (A.fill kind)))) := by
  have hadded : components.length + (fills.map (A.fill kind)).length = width.toNat := by
    rw [List.length_map, hlength]
  have hfills : (fills.map (A.fill kind)).map (A.convert kind) = fills.map (A.fill kind) := by
    rw [List.map_map]
    exact List.map_congr_left fun f _ => convert_fill kind kind f
  rw [eval_vectorTerm fills h, construct_vector hadded, List.map_append, hfills]
  rfl

end Evaluation

/-! ## Changes of Width -/

/-- An expression has the components that are read at another kind and width, whatever the components of
the tree are that it is made from. -/
def Reshapes (scope : Scope) (kind : ScalarKind) (width : Width) (targetKind : ScalarKind)
    (target : Width) (widening : Widening) (t : Term) (expr : Expr) : Prop :=
  ∃ t', ReadsAt scope expr (.vector targetKind target) t' ∧
    ∀ {F I : Type} {A : Arithmetic F I} {env : String → Option (Content F I)}
      {components : List (Scalar F I)}, t.eval A env = some (.single (.vector components)) →
      components.length = width.toNat → (∀ s ∈ components, s.kind = kind) →
      t'.eval A env = some (.single (.vector
        ((List.range target.toNat).map (readComponent A targetKind widening components))))

section Widths

variable {scope : Scope} {source : Expr} {kind : ScalarKind} {width target : Width} {t : Term}
  {widening : Widening}

theorem ReadsAt.reshapes_self (h : ReadsAt scope source (.vector kind width) t) :
    Reshapes scope kind width kind width widening t source := by
  refine ⟨t, h, fun heval hlength hkind => ?_⟩
  rw [map_readComponent_take hkind (Nat.le_of_eq hlength.symm), ← hlength, List.take_length, heval]

theorem ReadsAt.reshapes_leading (h : ReadsAt scope source (.vector kind width) t)
    (hlt : target.toNat < width.toNat) :
    Reshapes scope kind width kind target widening t (.leading source target) := by
  refine ⟨_, h.leading hlt, fun heval hlength hkind => ?_⟩
  have hle : target.toNat ≤ width.toNat := Nat.le_of_lt hlt
  rw [eval_leading heval hlength hlt, map_readComponent_take hkind (hlength ▸ hle)]

/-- A scalar is repeated in up to three components. -/
theorem ReadsAt.reshapes_spread (h : ReadsAt scope source (.vector kind .one) t)
    (hle : target.toNat ≤ 3) :
    Reshapes scope kind .one kind target widening t (.construct (.vector kind target) source []) := by
  refine ⟨_, h.vector rfl, fun heval hlength _ => ?_⟩
  obtain ⟨s, rfl⟩ := List.length_eq_one_iff.1 hlength
  rw [eval_vectorTerm_scalar target heval, map_readComponent_replicate s hle]

/-- A scalar is repeated in three components, and the fourth is added. -/
theorem ReadsAt.reshapes_spread_four (h : ReadsAt scope source (.vector kind .one) t) :
    Reshapes scope kind .one kind .four widening t
      (.construct (.vector kind .four) (.construct (.vector kind .three) source [])
        [widening.fourth]) := by
  have hthree : ReadsAt scope (.construct (.vector kind .three) source []) (.vector kind .three)
    (vectorTerm kind .three t []) := h.vector rfl
  refine ⟨_, hthree.vector rfl, fun {F I A env components} heval hlength _ => ?_⟩
  obtain ⟨s, rfl⟩ := List.length_eq_one_iff.1 hlength
  have hspread : (List.range 3).map (readComponent A kind widening [s]) =
      List.replicate 3 (A.convert kind s) :=
    map_readComponent_replicate s (Nat.le_refl 3)
  have hlast : readComponent A kind widening [s] 3 = A.fill kind widening.fourth :=
    (readComponent_of_le (Nat.le_of_ble_eq_true rfl) (.inr (Nat.le_refl 3))).trans
      (fill_eq_addedComponent 3).symm
  have hfour : (List.range 4).map (readComponent A kind widening [s]) =
      List.replicate 3 (A.convert kind s) ++ [A.fill kind widening.fourth] := by
    rw [List.range_succ, List.map_append, hspread, List.map_singleton, hlast]
  rw [eval_vectorTerm_components (eval_vectorTerm_scalar .three heval) rfl, List.map_replicate,
    convert_of_kind (kind_convert kind s)]
  exact congrArg (fun components => some (Content.single (.vector components))) hfour.symm

/-- The missing components of a vector are added. -/
theorem ReadsAt.reshapes_widen (h : ReadsAt scope source (.vector kind width) t)
    (hvector : width ≠ .one) (hlt : width.toNat < target.toNat) :
    Reshapes scope kind width kind target widening t
      (.construct (.vector kind target) source
        ((List.range' width.toNat (target.toNat - width.toNat)).map fun i =>
          if i = 3 then widening.fourth else .zero)) := by
  have hconstructible : constructible (.vector kind target)
      (.vector kind width :: List.replicate (target.toNat - width.toNat) (.vector kind .one)) =
        true := by
    revert hlt hvector
    cases width <;> cases target <;> cases kind <;> decide
  have hone : width.toNat ≠ 1 := by
    cases width with
    | one => exact absurd rfl hvector
    | _ => decide
  refine ⟨_, h.vector ?_, fun {F I A env components} heval hlength hkind => ?_⟩
  · rw [List.length_map, List.length_range']
    exact hconstructible
  · have hkept : components.map (A.convert kind) = components := by
      rw [List.map_congr_left fun s hs => convert_of_kind (hkind s hs), List.map_id']
    rw [eval_vectorTerm_components heval
        (by rw [hlength, List.length_map, List.length_range']; omega), hkept, List.map_map,
      map_readComponent_append hkind (by rw [hlength]; exact hone) (by omega), hlength]
    -- Each added component is written as the number that it is to be.
    rw [List.map_congr_left fun i _ => (fill_eq_addedComponent i).symm]
    rfl

/-- A constructor of the other kind converts each component. -/
theorem Reshapes.convert {expr : Expr} (h : Reshapes scope kind width kind target widening t expr)
    (targetKind : ScalarKind) :
    Reshapes scope kind width targetKind target widening t
      (.construct (.vector targetKind target) expr []) := by
  obtain ⟨t', hreads, hcomponents⟩ := h
  have hconstructible : constructible (.vector targetKind target) [.vector kind target] = true := by
    cases target <;> cases kind <;> cases targetKind <;> decide
  refine ⟨_, hreads.vector hconstructible, fun {F I A env components} heval hlength hkind => ?_⟩
  have hconverted : ((List.range target.toNat).map (readComponent A kind widening components)).map
      (A.convert targetKind) =
        (List.range target.toNat).map (readComponent A targetKind widening components) := by
    rw [List.map_map]
    exact List.map_congr_left fun i _ => convert_readComponent hkind targetKind i
  rw [eval_vectorTerm_components (hcomponents heval hlength hkind) (by simp), hconverted,
    List.map_nil, List.append_nil]

end Widths

/-- Every change of width has one of these forms. -/
theorem ReadsAt.reshapes {scope : Scope} {source : Expr} {kind : ScalarKind} {width : Width}
    {t : Term} (h : ReadsAt scope source (.vector kind width) t) (target : Width)
    (widening : Widening) :
    Reshapes scope kind width kind target widening t
      (Expr.reshape kind source width target widening) := by
  unfold Expr.reshape
  by_cases hsame : width = target
  · rw [if_pos hsame]
    subst hsame
    exact h.reshapes_self
  · rw [if_neg hsame]
    by_cases hnarrow : target.toNat < width.toNat
    · rw [if_pos hnarrow]
      exact h.reshapes_leading hnarrow
    · rw [if_neg hnarrow]
      by_cases hscalar : width = .one
      · rw [if_pos hscalar]
        subst hscalar
        by_cases hfour : target = .four
        · rw [if_pos hfour]
          subst hfour
          exact h.reshapes_spread_four
        · rw [if_neg hfour]
          apply h.reshapes_spread
          cases target with
          | four => exact absurd rfl hfour
          | _ => decide
      · rw [if_neg hscalar]
        apply h.reshapes_widen hscalar
        -- Widths that are neither the same nor narrower are wider.
        cases width <;> cases target <;> simp_all [Width.toNat]

/-! ## Main Result -/

theorem read_self (v : Value) (widening : Widening) : v.read v.ty widening = .ok (.atom v.name) :=
  if_pos rfl

/-- A scalar or vector is brought to the width first and to the kind after that. -/
theorem read_vector {v : Value} {kind targetKind : ScalarKind} {width targetWidth : Width}
    (hsingle : v.arrayLen = none) (hty : v.ty = .vector kind width) (widening : Widening) :
    v.read (.vector targetKind targetWidth) widening =
      .ok (if kind = targetKind then
          Expr.reshape kind (.atom v.name) width targetWidth widening
        else
          .construct (.vector targetKind targetWidth)
            (Expr.reshape kind (.atom v.name) width targetWidth widening) []) := by
  unfold Value.read
  rw [hty, hsingle]
  by_cases hsame : ValueType.vector kind width = .vector targetKind targetWidth
  · obtain ⟨rfl, rfl⟩ := ValueType.vector.inj hsame
    rw [if_pos rfl, if_pos rfl, Expr.reshape, if_pos rfl]
  · rw [if_neg hsame]
    rfl

theorem read_matrix {v : Value} {size targetSize : Columns} (hsingle : v.arrayLen = none)
    (hty : v.ty = .matrix size) (hne : size ≠ targetSize) (widening : Widening) :
    v.read (.matrix targetSize) widening =
      .ok (.construct (.matrix targetSize) (.atom v.name) []) := by
  unfold Value.read
  rw [hty, hsingle, if_neg fun hsame => hne (ValueType.matrix.inj hsame)]
  rfl

theorem read_eq_error {v : Value} {target : ValueType} (h : ¬ Coercible v.ty target)
    (widening : Widening) :
    v.read target widening = .error (.invalidCoercion v.name v.ty target) := by
  unfold Coercible at h
  unfold Value.read
  rw [if_neg fun hsame => h (.inl hsame)]
  split
  · rfl
  · split
    · rename_i kind width targetKind targetWidth hty
      rw [hty] at h
      exact absurd (.inr (.inl ⟨rfl, rfl⟩)) h
    · rename_i size targetSize hty
      rw [hty] at h
      exact absurd (.inr (.inr ⟨rfl, rfl⟩)) h
    · rfl

/-- A read of a scalar or vector at another has the components that it is to have. -/
theorem exists_reshapes_read {scope : Scope} {v : Value} {t : Term} {kind : ScalarKind} {width : Width}
    (h : ReadsAt scope (.atom v.name) v.ty t) (hsingle : v.arrayLen = none)
    (hty : v.ty = .vector kind width) (targetKind : ScalarKind) (target : Width)
    (widening : Widening) :
    ∃ expr, v.read (.vector targetKind target) widening = .ok expr ∧
      Reshapes scope kind width targetKind target widening t expr := by
  rw [hty] at h
  refine ⟨_, read_vector hsingle hty widening, ?_⟩
  have hreshapes := h.reshapes target widening
  by_cases hkind : kind = targetKind
  · rw [if_pos hkind, ← hkind]
    exact hreshapes
  · rw [if_neg hkind]
    exact hreshapes.convert targetKind

/-- Every read that is not refused is read back as an expression of the type that was asked for. -/
theorem exists_readsAt {scope : Scope} {v : Value} {t : Term} {target : ValueType}
    (h : ReadsAt scope (.atom v.name) v.ty t) (hsingle : v.arrayLen = none)
    (hcoercible : Coercible v.ty target) (widening : Widening) :
    ∃ expr t', v.read target widening = .ok expr ∧ ReadsAt scope expr target t' ∧
      ∀ {kind targetKind : ScalarKind} {width targetWidth : Width}, v.ty = .vector kind width →
        target = .vector targetKind targetWidth →
        ∀ {F I : Type} {A : Arithmetic F I} {env : String → Option (Content F I)}
          {components : List (Scalar F I)}, t.eval A env = some (.single (.vector components)) →
          components.length = width.toNat → (∀ s ∈ components, s.kind = kind) →
          t'.eval A env = some (.single (.vector ((List.range targetWidth.toNat).map
            (readComponent A targetKind widening components)))) := by
  by_cases hvectors : v.ty.scalarKind.isSome ∧ target.scalarKind.isSome
  · obtain ⟨kind, width, hty⟩ := exists_eq_vector hvectors.1
    obtain ⟨targetKind, targetWidth, rfl⟩ := exists_eq_vector hvectors.2
    obtain ⟨expr, hread, t', hreads, hcomponents⟩ :=
      exists_reshapes_read h hsingle hty targetKind targetWidth widening
    refine ⟨expr, t', hread, hreads, fun hsource htarget => ?_⟩
    rw [hty] at hsource
    cases hsource
    cases htarget
    exact hcomponents
  · -- The types are the same, or both are matrices, and there are no components to speak of.
    have hnone {kind targetKind : ScalarKind} {width targetWidth : Width}
        (hty : v.ty = .vector kind width) (htarget : target = .vector targetKind targetWidth) :
        False := by
      rw [hty, htarget] at hvectors
      exact hvectors ⟨rfl, rfl⟩
    by_cases hsame : v.ty = target
    · refine ⟨.atom v.name, t, hsame ▸ read_self v widening, hsame ▸ h, fun hty htarget => ?_⟩
      exact (hnone hty htarget).elim
    · obtain ⟨hmatrix, htarget⟩ := (hcoercible.resolve_left hsame).resolve_left hvectors
      obtain ⟨size, hty⟩ := exists_eq_matrix hmatrix
      obtain ⟨targetSize, rfl⟩ := exists_eq_matrix htarget
      rw [hty] at h
      refine ⟨_, _, read_matrix hsingle hty (fun heq => hsame (hty.trans (congrArg _ heq))) widening,
        h.construct rfl rfl, fun hsource htarget => ?_⟩
      exact (hnone hsource htarget).elim

/-- The meaning of a read. Let a value that is not an array have a name that is read as an expression
of the type of the value.

* It can be read at the same type, at scalars and vectors if it is one, and at matrices if it is one.
  Everything else is refused.
* The text of a read is an expression of exactly the type that was asked for.
* Whatever the variables stand for, if both types are scalars or vectors, each component is that of the
  value, converted, if the value has one. A scalar is also repeated in the second and third component.
  Any other component is zero, but the fourth one of a point is one. -/
theorem read_meaning (scope : Scope) (v : Value) (t : Term) (target : ValueType)
    (widening : Widening) (hsingle : v.arrayLen = none) (hread : Term.read v.name = some t)
    (htyped : t.typeIn scope = some (.single v.ty)) :
    (¬ Coercible v.ty target →
      v.read target widening = .error (.invalidCoercion v.name v.ty target)) ∧
    (Coercible v.ty target → ∃ expr t', v.read target widening = .ok expr ∧
      Term.read expr.render = some t' ∧ t'.typeIn scope = some (.single target) ∧
      ∀ (F I : Type) (A : Arithmetic F I) (env : String → Option (Content F I)), scope.Holds env →
        ∃ q q', t.eval A env = some (.single q) ∧ q.Fits v.ty ∧
          t'.eval A env = some (.single q') ∧ q'.Fits target ∧
          ∀ kind width targetKind targetWidth, v.ty = .vector kind width →
            target = .vector targetKind targetWidth → ∀ i < targetWidth.toNat,
              q'.components[i]? = some (readComponent A targetKind widening q.components i)) := by
  have hatom : ReadsAt scope (.atom v.name) v.ty t := ⟨readsTerm_iff.2 hread, htyped⟩
  refine ⟨fun hrefused => read_eq_error hrefused widening, fun hcoercible => ?_⟩
  obtain ⟨expr, t', hok, hreads, hcomponents⟩ := exists_readsAt hatom hsingle hcoercible widening
  refine ⟨expr, t', hok, readsTerm_iff.1 hreads.reads, hreads.typed, fun F I A env henv => ?_⟩
  obtain ⟨content, heval, hfits⟩ := exists_eval_of_typeIn henv htyped
  obtain ⟨content', heval', hfits'⟩ := exists_eval_of_typeIn henv hreads.typed
  obtain ⟨q, rfl, hq⟩ := hfits.exists_single
  obtain ⟨q', rfl, hq'⟩ := hfits'.exists_single
  refine ⟨q, q', heval, hq, heval', hq', fun kind width targetKind targetWidth hty htarget i hi => ?_⟩
  rw [hty] at hq
  obtain ⟨components, rfl, hlength, hkind⟩ := hq.exists_vector
  rw [hcomponents hty htarget heval hlength hkind] at heval'
  cases heval'
  show ((List.range targetWidth.toNat).map _)[i]? = _
  rw [List.getElem?_map, List.getElem?_range hi]
  rfl

/-- Fractions for floats, and integers without bounds. -/
def exactArithmetic : Arithmetic Rat Int where
  float x := x
  int n := n
  toFloat n := n
  toInt x := x.num.tdiv x.den
  toFloat_zero := rfl
  toFloat_one := rfl
  toInt_zero := rfl
  toInt_one := rfl

/-- A cell of a grid. -/
def gridCell : Value :=
  .computed "cell" .ivec2

/-- The cell is the only variable. -/
def gridScope : Scope where
  types text := if text = "cell" then some (.single .ivec2) else none
  scalarSwizzles := false

/-- The contents of the variables for one cell. -/
def gridContents (text : String) : Option (Content Rat Int) :=
  if text = "cell" then some (.single (.vector [.int 3, .int (-4)])) else none

/-- A cell is read at four floats as a point: first two integers are added, then all are converted. -/
theorem gridCell_read_meaning :
    ∃ expr t' q', gridCell.read .vec4 .point = .ok expr ∧
      expr.render = "vec4(ivec4(cell, 0, 1))" ∧ Term.read expr.render = some t' ∧
      t'.typeIn gridScope = some (.single .vec4) ∧
      t'.eval exactArithmetic gridContents = some (.single q') ∧
      q'.components[0]? = some (.float 3) ∧ q'.components[1]? = some (.float (-4)) ∧
      q'.components[2]? = some (.float 0) ∧ q'.components[3]? = some (.float 1) := by
  have hcontents : gridScope.Holds gridContents := by
    intro text ty hty
    obtain ⟨htext, hsingle⟩ := Option.ite_none_right_eq_some.1 hty
    cases hsingle
    refine ⟨.single (.vector [.int 3, .int (-4)]), if_pos htext, rfl, fun s hs => ?_⟩
    rcases List.mem_cons.1 hs with rfl | hs
    · rfl
    · rw [List.mem_singleton.1 hs]
      rfl
  obtain ⟨expr, t', hok, hread, htyped, hmeaning⟩ :=
    (read_meaning gridScope gridCell (.name "cell") .vec4 .point rfl rfl rfl).2 (by decide)
  obtain ⟨q, q', heval, -, heval', -, hcomponents⟩ :=
    hmeaning Rat Int exactArithmetic gridContents hcontents
  have hrender : expr.render = "vec4(ivec4(cell, 0, 1))" := by
    cases hok
    rfl
  cases heval
  have hcomponent := hcomponents .int .two .float .four rfl rfl
  exact ⟨expr, t', q', hok, hrender, hread, htyped, heval', hcomponent 0 (by decide),
    hcomponent 1 (by decide), hcomponent 2 (by decide), hcomponent 3 (by decide)⟩

end ShaderWeave
