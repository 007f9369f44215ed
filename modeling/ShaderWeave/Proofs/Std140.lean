import ShaderWeave.Block.Layout

/-!
# The std140 Rules

The rules by which the members of a uniform block are placed, in natural numbers and without a way to
compute them: what it means that a layout follows them. There is at most one such layout, and the one
that is computed in words is it.

## Main definitions

* `Std140.Placed`: a member lies at the first place from a start on.
* `BlockLayout.IsStd140`: a layout follows the rules.

## Main results

* `std140?_isStd140`: the layout that is computed follows the rules.
* `isStd140_iff_eq`: no other layout does.
-/

namespace ShaderWeave

/-- The least multiple of `align` that is not below `start`. -/
structure LeastMultiple (align start multiple : Nat) : Prop where
  /-- It is a multiple. -/
  dvd : align ∣ multiple
  /-- It is not below the start. -/
  le : start ≤ multiple
  /-- No multiple between the two is. -/
  least : ∀ other, align ∣ other → start ≤ other → multiple ≤ other

theorem LeastMultiple.unique {align start first second : Nat} (hfirst : LeastMultiple align start first)
    (hsecond : LeastMultiple align start second) : first = second := by
  apply Nat.le_antisymm
  · exact hfirst.least second hsecond.dvd hsecond.le
  · exact hsecond.least first hfirst.dvd hfirst.le

/-- Rounding up gives the least multiple of the alignment; without an alignment every number counts. -/
theorem leastMultiple_of_roundUp? {value align offset : UInt32}
    (h : Word.roundUp? value align = some offset) :
    LeastMultiple (if align = 0 then 1 else align.toNat) value.toNat offset.toNat := by
  by_cases halign : align = 0
  · rw [Word.roundUp?, if_pos halign] at h
    cases h
    rw [if_pos halign]
    exact ⟨Nat.one_dvd _, Nat.le_refl _, fun _ _ hle => hle⟩
  · obtain ⟨hdvd, hle, hleast⟩ := Word.roundUp?_least halign h
    rw [if_neg halign]
    exact ⟨hdvd, hle, hleast⟩

namespace Std140

/-- The base alignment of a value: four bytes for each component, where three components count as four.
The columns of a matrix are aligned like vectors of four. What is opaque takes no place. -/
def alignment : ValueType → Nat
  | .vector _ .one => 4
  | .vector _ .two => 8
  | .vector _ .three => 16
  | .vector _ .four => 16
  | .matrix _ => 16
  | .sampler _ => 1

/-- Bytes of a value: four for each component, sixteen for each column. -/
def size : ValueType → Nat
  | .vector _ width => 4 * width.toNat
  | .matrix columns => 16 * columns.toNat
  | .sampler _ => 0

/-- A variable has its place as a member at the first multiple of its alignment from `start` on. The
elements of an array are aligned to sixteen bytes, and so is the array. -/
structure Placed (start : Nat) (var : Variable) (member : Member) : Prop where
  /-- The member declares the variable. -/
  variable_eq : member.toVariable = var
  /-- Its offset. -/
  offset : LeastMultiple (if var.arrayLen.isSome then 16 else alignment var.ty) start
    member.offset.toNat
  /-- The distance of its elements. -/
  stride : if var.arrayLen.isSome then LeastMultiple 16 (size var.ty) member.stride.toNat
    else member.stride.toNat = size var.ty
  /-- Its bytes. -/
  size : member.size.toNat = member.stride.toNat * var.elementCount.toNat

/-- Variables are placed one after another from a start on, up to an end. -/
inductive Laid : Nat → List Variable → List Member → Nat → Prop where
  /-- Without variables, the end is the start. -/
  | nil (start : Nat) : Laid start [] [] start
  /-- The next variable begins where the first one ends. -/
  | cons {start finish : Nat} {var : Variable} {vars : List Variable} {member : Member}
      {members : List Member} (hplaced : Placed start var member)
      (hrest : Laid (member.offset.toNat + member.size.toNat) vars members finish) :
      Laid start (var :: vars) (member :: members) finish

end Std140

open Std140

/-- The members are the given variables, placed one after another from zero on, and the block ends at the
first multiple of sixteen bytes after the last of them. -/
def BlockLayout.IsStd140 (vars : List Variable) (layout : BlockLayout) : Prop :=
  ∃ finish, Laid 0 vars layout.members finish ∧ LeastMultiple 16 finish layout.size.toNat

/-! ## The Computed Layout -/

theorem alignment_eq (ty : ValueType) :
    (if ty.std140.1 = 0 then 1 else ty.std140.1.toNat) = alignment ty := by
  rcases ty with ⟨_, _ | _ | _ | _⟩ | ⟨_ | _ | _⟩ | _ <;> rfl

theorem size_eq (ty : ValueType) : ty.std140.2.toNat = size ty := by
  rcases ty with ⟨_, _ | _ | _ | _⟩ | ⟨_ | _ | _⟩ | _ <;> rfl

theorem placed_of_placeMember? {start : UInt32} {var : Variable} {member : Member}
    (h : BlockLayout.placeMember? start var = some member) : Placed start.toNat var member := by
  obtain ⟨footprint, hfootprint, h⟩ := Option.bind_eq_some_iff.1 h
  obtain ⟨offset, hoffset, h⟩ := Option.bind_eq_some_iff.1 h
  cases h
  have hoffset := leastMultiple_of_roundUp? hoffset
  rcases var with ⟨name, ty, _ | len⟩
  · -- A single value is as far from the next as it is long.
    have hsingle : some { align := ty.std140.1, stride := ty.std140.2, size := ty.std140.2 } =
      some footprint := hfootprint
    obtain rfl := Option.some.inj hsingle
    rw [alignment_eq] at hoffset
    exact ⟨rfl, hoffset, size_eq ty, (Nat.mul_one _).symm⟩
  · have harray : ((Word.roundUp? ty.std140.2 16).bind fun stride =>
      (Word.mul? stride len).bind fun size => some { align := 16, stride, size }) =
        some footprint := hfootprint
    obtain ⟨stride, hstride, harray⟩ := Option.bind_eq_some_iff.1 harray
    obtain ⟨total, htotal, harray⟩ := Option.bind_eq_some_iff.1 harray
    obtain rfl := Option.some.inj harray
    have hstride := leastMultiple_of_roundUp? hstride
    rw [size_eq] at hstride
    exact ⟨rfl, hoffset, hstride, Word.mul?_eq_some_iff.1 htotal⟩

theorem laid_of_place? {start finish : UInt32} {vars : List Variable} {members : List Member}
    (h : BlockLayout.place? start vars = some (members, finish)) :
    Laid start.toNat vars members finish.toNat := by
  induction vars generalizing start members with
  | nil =>
    cases h
    exact .nil _
  | cons var rest ih =>
    obtain ⟨member, hmember, h⟩ := Option.bind_eq_some_iff.1 h
    obtain ⟨after, hafter, h⟩ := Option.bind_eq_some_iff.1 h
    obtain ⟨⟨others, last⟩, hothers, h⟩ := Option.bind_eq_some_iff.1 h
    cases h
    have hrest := ih hothers
    rw [Word.add?_eq_some_iff.1 hafter] at hrest
    exact .cons (placed_of_placeMember? hmember) hrest

/-- The layout that is computed follows the rules. -/
theorem std140?_isStd140 {vars : List Variable} {layout : BlockLayout}
    (h : BlockLayout.std140? vars = some layout) : layout.IsStd140 vars := by
  obtain ⟨⟨members, finish⟩, hplaced, h⟩ := Option.bind_eq_some_iff.1 h
  obtain ⟨size, hsize, h⟩ := Option.bind_eq_some_iff.1 h
  cases h
  exact ⟨finish.toNat, laid_of_place? hplaced, leastMultiple_of_roundUp? hsize⟩

/-! ## Uniqueness -/

theorem Std140.Placed.unique {start : Nat} {var : Variable} {first second : Member}
    (hfirst : Placed start var first) (hsecond : Placed start var second) : first = second := by
  have hoffset : first.offset = second.offset :=
    UInt32.toNat_inj.1 (hfirst.offset.unique hsecond.offset)
  have hstride : first.stride = second.stride := by
    apply UInt32.toNat_inj.1
    have hone := hfirst.stride
    have hother := hsecond.stride
    split at hone
    · rw [if_pos ‹_›] at hother
      exact hone.unique hother
    · rw [if_neg ‹_›] at hother
      exact hone.trans hother.symm
  have hsize : first.size = second.size := by
    apply UInt32.toNat_inj.1
    rw [hfirst.size, hsecond.size, hstride]
  have hvar : first.toVariable = second.toVariable :=
    hfirst.variable_eq.trans hsecond.variable_eq.symm
  cases first
  cases second
  simp_all

theorem Std140.Laid.unique {start finish last : Nat} {vars : List Variable} {first second : List Member}
    (hfirst : Laid start vars first finish) (hsecond : Laid start vars second last) :
    first = second ∧ finish = last := by
  induction hfirst generalizing second with
  | nil start =>
    cases hsecond
    exact ⟨rfl, rfl⟩
  | cons hplaced _ ih =>
    cases hsecond with
    | cons hother hrest =>
      obtain rfl := hplaced.unique hother
      obtain ⟨rfl, rfl⟩ := ih hrest
      exact ⟨rfl, rfl⟩

/-- A layout that is computed is the only one that follows the rules. -/
theorem isStd140_iff_eq {vars : List Variable} {layout other : BlockLayout}
    (h : BlockLayout.std140? vars = some layout) : other.IsStd140 vars ↔ other = layout := by
  constructor
  · intro hother
    obtain ⟨finish, hlaid, hsize⟩ := hother
    obtain ⟨last, hlaid', hsize'⟩ := std140?_isStd140 h
    obtain ⟨hmembers, rfl⟩ := hlaid.unique hlaid'
    have hsizes : other.size = layout.size := UInt32.toNat_inj.1 (hsize.unique hsize')
    cases other
    cases layout
    simp_all
  · rintro rfl
    exact std140?_isStd140 h

end ShaderWeave
