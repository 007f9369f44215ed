import ShaderWeave.Proofs.WriteBounds

/-!
# Exact Layouts

Layouts are computed in words, and the rules are about numbers. Where the last member ends, in exact
numbers, says whether the words suffice; if so, the layout is the one that the rules ask for, member by
member. Since a member depends on what stands before it only through the end of the member placed last,
and every alignment divides sixteen, members can be cut off at the end, and whole rows of sixteen bytes
can be put in between, without disturbing the others.

## Main definitions

* `Std140.finishFrom`: where the last of some variables ends.
* `runningEnd`: the end of the member placed last.
* `BlockLayout.Conforms`: what the rules ask of each member and of the block.
* `Member.MovedBy`: the same member, further back in the block.

## Main results

* `exists_std140?`: there is a layout if its end fits.
* `conforms_iff_eq`: it conforms to the rules, and no other layout does.
* `Std140.Laid.moved`: from a start that is whole rows later, everything is placed so much later.
* `std140?_conforms`: the layout of a list of members, of its prefixes, and after an insertion.
-/

namespace ShaderWeave

open Std140

/-! ## Where Members End -/

/-- The end of the last variable if they are placed one after another from `start` on. -/
def Std140.finishFrom : (start : Nat) → List Variable → Nat
  | start, [] => start
  | start, var :: rest => finishFrom (roundUp start (memberAlignment var) + memberSize var) rest

/-- First byte after a member. -/
def Member.finish (member : Member) : Nat :=
  member.offset.toNat + member.size.toNat

/-- The end of the member placed last, zero before the first one. -/
def runningEnd (members : List Member) : Nat :=
  (members.getLast?.map Member.finish).getD 0

theorem Std140.le_roundUp (start : Nat) {align : Nat} (halign : 0 < align) :
    start ≤ roundUp start align := by
  have hdivision := Nat.div_add_mod (start + align - 1) align
  have hrest := Nat.mod_lt (start + align - 1) halign
  rw [roundUp, Nat.mul_comm]
  omega

/-- Rounding up commutes with moving by a multiple of the alignment. -/
theorem Std140.roundUp_add (start : Nat) {align amount : Nat} (halign : 0 < align)
    (hdvd : align ∣ amount) : roundUp (start + amount) align = roundUp start align + amount := by
  obtain ⟨count, rfl⟩ := hdvd
  have hsum : start + align * count + align - 1 = start + align - 1 + align * count := by omega
  rw [roundUp, roundUp, hsum, Nat.add_mul_div_left _ _ halign, Nat.add_mul, Nat.mul_comm count]

theorem Std140.memberAlignment_dvd (var : Variable) : memberAlignment var ∣ 16 := by
  unfold memberAlignment
  split
  · exact Nat.dvd_refl 16
  · rcases var.ty with ⟨_, _ | _ | _ | _⟩ | _ | _ <;> simp [alignment]

theorem Std140.size_le (ty : ValueType) : Std140.size ty ≤ 64 := by
  rcases ty with ⟨_, _ | _ | _ | _⟩ | ⟨_ | _ | _⟩ | _ <;>
    simp [Std140.size, Width.toNat, Columns.toNat]

theorem Std140.le_finishFrom (start : Nat) (vars : List Variable) : start ≤ finishFrom start vars := by
  induction vars generalizing start with
  | nil => exact Nat.le_refl _
  | cons var rest ih =>
    have hround := le_roundUp start (memberAlignment_pos var)
    exact Nat.le_trans (Nat.le_trans hround (Nat.le_add_right _ _)) (ih _)

theorem Std140.roundUp_mono {start later : Nat} (align : Nat) (h : start ≤ later) :
    roundUp start align ≤ roundUp later align :=
  Nat.mul_le_mul_right align (Nat.div_le_div_right (by omega))

theorem Std140.finishFrom_mono {start later : Nat} (h : start ≤ later) (vars : List Variable) :
    finishFrom start vars ≤ finishFrom later vars := by
  induction vars generalizing start later with
  | nil => exact h
  | cons var rest ih => exact ih (Nat.add_le_add_right (roundUp_mono _ h) _)

theorem Std140.finishFrom_append (start : Nat) (first rest : List Variable) :
    finishFrom start (first ++ rest) = finishFrom (finishFrom start first) rest := by
  induction first generalizing start with
  | nil => rfl
  | cons var first ih => exact ih _

theorem Std140.finishFrom_add_rows (start rows : Nat) (vars : List Variable) :
    finishFrom (start + 16 * rows) vars = finishFrom start vars + 16 * rows := by
  induction vars generalizing start with
  | nil => rfl
  | cons var rest ih =>
    have hdvd := Nat.dvd_trans (memberAlignment_dvd var) (Nat.dvd_mul_right 16 rows)
    rw [finishFrom, finishFrom, roundUp_add start (memberAlignment_pos var) hdvd,
      Nat.add_right_comm, ih]

/-! ## Words That Suffice -/

theorem Word.exists_ofNat? {n : Nat} (h : n < Word.limit) : ∃ word, Word.ofNat? n = some word := by
  refine Option.ne_none_iff_exists'.1 fun hnone => ?_
  exact absurd h (Nat.not_lt.2 (Word.ofNat?_eq_none_iff.1 hnone))

theorem Word.exists_roundUp? {value align : UInt32}
    (h : roundUp value.toNat align.toNat < Word.limit) :
    ∃ multiple, Word.roundUp? value align = some multiple := by
  unfold Word.roundUp?
  split
  · exact ⟨value, rfl⟩
  · exact Word.exists_ofNat? h

/-- What a variable takes fits words if its size does, with the alignment that the rules give it. -/
theorem Variable.exists_footprint? {var : Variable} (h : memberSize var < Word.limit) :
    ∃ footprint, var.footprint? = some footprint ∧
      (if footprint.align = 0 then 1 else footprint.align.toNat) = memberAlignment var := by
  rcases var with ⟨name, ty, _ | len⟩
  · exact ⟨_, rfl, alignment_eq ty⟩
  · have hrow : roundUp (Std140.size ty) 16 < Word.limit := by
      have hsize := size_le ty
      unfold roundUp Word.limit
      omega
    obtain ⟨stride, hstride⟩ : ∃ stride, Word.roundUp? ty.std140.2 16 = some stride :=
      Word.exists_roundUp? (by rw [size_eq]; exact hrow)
    have hstrideEq : stride.toNat = roundUp (Std140.size ty) 16 := by
      have hleast := leastMultiple_of_roundUp? hstride
      rw [size_eq] at hleast
      exact hleast.eq_roundUp (by decide)
    obtain ⟨total, htotal⟩ : ∃ total, Word.mul? stride len = some total := by
      refine Word.exists_ofNat? ?_
      rw [hstrideEq]
      exact h
    refine ⟨{ align := 16, stride, size := total }, ?_, rfl⟩
    simp only [Variable.footprint?, hstride, htotal, Option.bind_eq_bind, Option.bind_some]
    rfl

/-- A member has a place if its end fits a word. -/
theorem exists_placeMember? {start : UInt32} {var : Variable}
    (h : roundUp start.toNat (memberAlignment var) + memberSize var < Word.limit) :
    ∃ member, BlockLayout.placeMember? start var = some member := by
  obtain ⟨footprint, hfootprint, halign⟩ := @Variable.exists_footprint? var (by omega)
  obtain ⟨offset, hoffset⟩ : ∃ offset, Word.roundUp? start footprint.align = some offset := by
    by_cases hzero : footprint.align = 0
    · exact ⟨start, by rw [Word.roundUp?, if_pos hzero]⟩
    · rw [if_neg hzero] at halign
      refine Word.exists_roundUp? ?_
      rw [halign]
      omega
  refine ⟨{ var with offset, stride := footprint.stride, size := footprint.size }, ?_⟩
  unfold BlockLayout.placeMember?
  rw [hfootprint, Option.bind_eq_bind, Option.bind_some, hoffset]
  rfl

/-- The end of placed members is where the last of their variables ends. -/
theorem Std140.Laid.finish_eq {start finish : Nat} {vars : List Variable} {members : List Member}
    (h : Laid start vars members finish) : finish = finishFrom start vars := by
  induction h with
  | nil => rfl
  | cons hplaced _ ih => rw [ih, finishFrom, hplaced.offset_eq, hplaced.size_eq]

/-- Members have places if the end of the last one fits a word. -/
theorem exists_place? {start : UInt32} {vars : List Variable}
    (h : finishFrom start.toNat vars < Word.limit) :
    ∃ members finish, BlockLayout.place? start vars = some (members, finish) := by
  induction vars generalizing start with
  | nil => exact ⟨[], start, rfl⟩
  | cons var rest ih =>
    -- The ends only grow, so if the last one fits, this one does too.
    have hend := Nat.lt_of_le_of_lt (le_finishFrom _ rest) h
    obtain ⟨member, hmember⟩ := exists_placeMember? hend
    have hplaced := placed_of_placeMember? hmember
    have hfinishEq : member.offset.toNat + member.size.toNat =
        roundUp start.toNat (memberAlignment var) + memberSize var := by
      rw [hplaced.offset_eq, hplaced.size_eq]
    obtain ⟨finish, hfinish⟩ : ∃ finish, Word.add? member.offset member.size = some finish :=
      Word.exists_ofNat? (by rw [hfinishEq]; exact hend)
    have hfinishNat : finish.toNat = _ := (Word.add?_eq_some_iff.1 hfinish).trans hfinishEq
    obtain ⟨members, last, hrest⟩ := @ih finish (by rw [hfinishNat]; exact h)
    refine ⟨member :: members, last, ?_⟩
    unfold BlockLayout.place?
    simp only [hmember, hfinish, hrest, Option.bind_eq_bind, Option.bind_some]
    rfl

/-- There is a layout if its end, rounded up to whole rows, fits a word. -/
theorem exists_std140? {vars : List Variable} (h : roundUp (finishFrom 0 vars) 16 < Word.limit) :
    ∃ layout, BlockLayout.std140? vars = some layout := by
  have hend := Nat.lt_of_le_of_lt (le_roundUp _ (by decide)) h
  obtain ⟨members, finish, hplace⟩ := @exists_place? 0 vars hend
  have hfinish : finish.toNat = finishFrom 0 vars := (laid_of_place? hplace).finish_eq
  obtain ⟨size, hsize⟩ : ∃ size, Word.roundUp? finish 16 = some size :=
    Word.exists_roundUp? (by rw [hfinish]; exact h)
  refine ⟨{ members, size }, ?_⟩
  unfold BlockLayout.std140?
  simp only [hplace, hsize, Option.bind_eq_bind, Option.bind_some]
  rfl

/-! ## What the Rules Ask -/

/-- What the rules ask of a layout of variables. -/
structure BlockLayout.Conforms (vars : List Variable) (layout : BlockLayout) : Prop where
  /-- One member for each variable, in order, with its name, type and array length. -/
  variables_eq : layout.members.map (·.toVariable) = vars
  /-- Each offset is the least multiple of the alignment that is not below the end of the member
  before. -/
  offset : ∀ before member after, layout.members = before ++ member :: after →
    LeastMultiple (memberAlignment member.toVariable) (runningEnd before) member.offset.toNat
  /-- Elements of arrays are spaced by their size, rounded up to sixteen; a single value is as far from
  the next as it is long. -/
  stride : ∀ member ∈ layout.members, if member.arrayLen.isSome
    then LeastMultiple 16 (Std140.size member.ty) member.stride.toNat
    else member.stride.toNat = Std140.size member.ty
  /-- The bytes of a member are those of its elements. -/
  memberSize : ∀ member ∈ layout.members,
    member.size.toNat = member.stride.toNat * member.elementCount.toNat
  /-- No member begins before an earlier one ends. -/
  disjoint : layout.members.Pairwise fun earlier later => earlier.finish ≤ later.offset.toNat
  /-- All members end inside the block. -/
  inside : ∀ member ∈ layout.members, member.finish ≤ layout.size.toNat
  /-- The block ends at the first whole row after the last member. -/
  blockSize : LeastMultiple 16 (runningEnd layout.members) layout.size.toNat

section Laid

variable {start finish : Nat} {vars : List Variable} {members : List Member}

/-- Members that are placed from `start` on do not begin before. -/
theorem Std140.Laid.le_offset (h : Laid start vars members finish) {member : Member}
    (hmem : member ∈ members) : start ≤ member.offset.toNat := by
  induction h with
  | nil => exact absurd hmem List.not_mem_nil
  | cons hplaced hrest ih =>
    have hoffset := hplaced.offset.le
    rcases List.mem_cons.1 hmem with rfl | hmem
    · exact hoffset
    · have hlater := ih hmem
      omega

theorem Std140.Laid.pairwise (h : Laid start vars members finish) :
    members.Pairwise fun earlier later => earlier.finish ≤ later.offset.toNat := by
  induction h with
  | nil => exact .nil
  | cons _ hrest ih => exact .cons (fun later hmem => hrest.le_offset hmem) ih

/-- The first members take the first variables, and the others begin where these end. -/
theorem Std140.Laid.split {first rest : List Variable}
    (h : Laid start (first ++ rest) members finish) :
    ∃ front back middle, members = front ++ back ∧ Laid start first front middle ∧
      Laid middle rest back finish := by
  induction first generalizing start members with
  | nil => exact ⟨[], members, start, rfl, .nil start, h⟩
  | cons var first ih =>
    cases h with
    | cons hplaced hrest =>
      obtain ⟨front, back, middle, rfl, hfront, hback⟩ := ih hrest
      exact ⟨_ :: front, back, middle, rfl, .cons hplaced hfront, hback⟩

theorem Std140.Laid.variables_eq (h : Laid start vars members finish) :
    members.map (·.toVariable) = vars := by
  induction h with
  | nil => rfl
  | cons hplaced _ ih => rw [List.map_cons, hplaced.variable_eq, ih]

theorem Std140.Laid.length_eq (h : Laid start vars members finish) :
    members.length = vars.length := by
  rw [← h.variables_eq, List.length_map]

theorem runningEnd_append_singleton (members : List Member) (member : Member) :
    runningEnd (members ++ [member]) = member.finish := by
  simp [runningEnd]

/-- Members that are placed from zero on end where the last of them ends. -/
theorem Std140.Laid.runningEnd_eq (h : Laid 0 vars members finish) : runningEnd members = finish := by
  -- The running end looks at the last member, so the members are taken from the end.
  induction members using List.reverseRecOn generalizing vars finish with
  | nil =>
    cases h
    rfl
  | append_singleton members member _ =>
    rcases List.eq_nil_or_concat' vars with rfl | ⟨first, last, rfl⟩
    · have hlength := h.length_eq
      simp at hlength
    · obtain ⟨front, back, middle, hmembers, -, hback⟩ := h.split
      cases hback with
      | cons hplaced hrest =>
        cases hrest
        rw [hmembers, runningEnd_append_singleton]
        rfl

end Laid

/-- A layout that follows the rules conforms to what they ask of each member. -/
theorem BlockLayout.IsStd140.conforms {vars : List Variable} {layout : BlockLayout}
    (h : layout.IsStd140 vars) : layout.Conforms vars := by
  obtain ⟨finish, hlaid, hsize⟩ := h
  have hplaced : ∀ before member after, layout.members = before ++ member :: after →
      Placed (runningEnd before) member.toVariable member := by
    intro before member after hmembers
    have hvars := hlaid.variables_eq
    rw [hmembers, List.map_append, List.map_cons] at hvars
    rw [← hvars] at hlaid
    obtain ⟨front, back, middle, hsplit, hfront, hback⟩ := hlaid.split
    have hlength : before.length = front.length := by rw [hfront.length_eq, List.length_map]
    obtain ⟨rfl, rfl⟩ := List.append_inj (hmembers.symm.trans hsplit) hlength
    rw [hfront.runningEnd_eq]
    cases hback with
    | cons hmember _ => exact hmember
  have hmember : ∀ member ∈ layout.members, ∃ begin, Placed begin member.toVariable member := by
    intro member hmem
    obtain ⟨before, after, hmembers⟩ := List.append_of_mem hmem
    exact ⟨_, hplaced before member after hmembers⟩
  refine ⟨hlaid.variables_eq, ?_, ?_, ?_, hlaid.pairwise, ?_, ?_⟩
  · exact fun before member after hmembers => (hplaced before member after hmembers).offset
  · intro member hmem
    obtain ⟨begin, hbegin⟩ := hmember member hmem
    exact hbegin.stride
  · intro member hmem
    obtain ⟨begin, hbegin⟩ := hmember member hmem
    exact hbegin.size
  · intro member hmem
    exact Nat.le_trans (hlaid.placed_of_mem hmem).2 hsize.le
  · rw [hlaid.runningEnd_eq]
    exact hsize

/-- What the rules ask of each member makes up the rules. -/
theorem BlockLayout.Conforms.isStd140 {vars : List Variable} {layout : BlockLayout}
    (h : layout.Conforms vars) : layout.IsStd140 vars := by
  have hlaid : ∀ after before, layout.members = before ++ after →
      Laid (runningEnd before) (after.map (·.toVariable)) after (runningEnd layout.members) := by
    intro after
    induction after with
    | nil =>
      intro before hmembers
      rw [hmembers, List.append_nil]
      exact .nil _
    | cons member after ih =>
      intro before hmembers
      have hmem : member ∈ layout.members := by
        rw [hmembers]
        exact List.mem_append_right _ List.mem_cons_self
      have hrest := ih (before ++ [member]) (by rw [hmembers, List.append_assoc]; rfl)
      rw [runningEnd_append_singleton] at hrest
      exact .cons ⟨rfl, h.offset before member after hmembers, h.stride member hmem,
        h.memberSize member hmem⟩ hrest
  have hall := hlaid layout.members [] rfl
  rw [h.variables_eq] at hall
  exact ⟨_, hall, h.blockSize⟩

/-- The layout that is computed is the one that conforms. -/
theorem conforms_iff_eq {vars : List Variable} {layout other : BlockLayout}
    (h : BlockLayout.std140? vars = some layout) : other.Conforms vars ↔ other = layout := by
  rw [← isStd140_iff_eq h]
  exact ⟨fun hother => hother.isStd140, fun hother => hother.conforms⟩

/-! ## Prefixes and Insertions -/

/-- The same member, so many bytes further back in the block. -/
structure Member.MovedBy (amount : Nat) (member moved : Member) : Prop where
  /-- It declares the same variable. -/
  variable_eq : moved.toVariable = member.toVariable
  /-- It begins so much later. -/
  offset_eq : moved.offset.toNat = member.offset.toNat + amount
  /-- Its elements are as far from each other. -/
  stride_eq : moved.stride = member.stride
  /-- It has the same size. -/
  size_eq : moved.size = member.size

/-- From a start that is whole rows later, the same variables are placed so much later. -/
theorem Std140.Laid.moved {start finish last rows : Nat} {vars : List Variable}
    {members others : List Member} (h : Laid start vars members finish)
    (hothers : Laid (start + 16 * rows) vars others last) :
    List.Forall₂ (Member.MovedBy (16 * rows)) members others := by
  induction h generalizing others with
  | nil =>
    cases hothers
    exact .nil
  | @cons start _ var _ member _ hplaced _ ih =>
    cases hothers with
    | @cons _ _ _ _ other _ hother hrest =>
      have hdvd := Nat.dvd_trans (memberAlignment_dvd var) (Nat.dvd_mul_right 16 rows)
      have hoffset : other.offset.toNat = member.offset.toNat + 16 * rows := by
        rw [hother.offset_eq, hplaced.offset_eq, roundUp_add start (memberAlignment_pos var) hdvd]
      have hsize : other.size = member.size := by
        rw [← UInt32.toNat_inj, hother.size_eq, hplaced.size_eq]
      have hstride : other.stride = member.stride := by
        rw [← UInt32.toNat_inj, hother.stride_eq, hplaced.stride_eq]
      refine .cons ⟨?_, hoffset, hstride, hsize⟩ (ih ?_)
      · rw [hother.variable_eq, hplaced.variable_eq]
      · rwa [hoffset, hsize, Nat.add_right_comm] at hrest

/-- The layout of the first variables is the first part of the layout of all. -/
theorem members_of_prefix {first rest : List Variable} {layout shorter : BlockLayout}
    (h : BlockLayout.std140? (first ++ rest) = some layout)
    (hshorter : BlockLayout.std140? first = some shorter) :
    shorter.members = layout.members.take first.length := by
  obtain ⟨finish, hlaid, -⟩ := std140?_isStd140 h
  obtain ⟨front, back, middle, hmembers, hfront, -⟩ := hlaid.split
  obtain ⟨last, hfirst, -⟩ := std140?_isStd140 hshorter
  rw [(hfirst.unique hfront).1, hmembers, ← hfront.length_eq, List.take_left]

/-- The second layout has one more member, at a position. The members before it are the same, those
after it and the end of the block are moved by a number of bytes. -/
structure BlockLayout.Inserted (shorter layout : BlockLayout) (position : Nat) (inserted : Variable)
    (amount : Nat) : Prop where
  /-- The members before stay as they are. -/
  front_eq : layout.members.take position = shorter.members.take position
  /-- The member declares the variable. -/
  inserted_eq : (layout.members[position]?).map (·.toVariable) = some inserted
  /-- The members after it are moved. -/
  back_moved : List.Forall₂ (Member.MovedBy amount) (shorter.members.drop position)
    (layout.members.drop (position + 1))
  /-- So is the end of the block. -/
  size_eq : layout.size.toNat = shorter.size.toNat + amount

/-- A member after which the running end is whole rows further on moves what comes after it by these. -/
theorem inserted_of_rows {before after : List Variable} {var : Variable} {rows : Nat}
    {layout shorter : BlockLayout} (h : BlockLayout.std140? (before ++ var :: after) = some layout)
    (hshorter : BlockLayout.std140? (before ++ after) = some shorter)
    (hgrown : runningEnd (layout.members.take (before.length + 1)) =
      runningEnd (layout.members.take before.length) + 16 * rows) :
    BlockLayout.Inserted shorter layout before.length var (16 * rows) := by
  obtain ⟨finish, hlaid, hsize⟩ := std140?_isStd140 h
  obtain ⟨last, hlaidShorter, hsizeShorter⟩ := std140?_isStd140 hshorter
  obtain ⟨front, back, middle, hmembers, hfront, hback⟩ := hlaid.split
  obtain ⟨frontShorter, backShorter, middleShorter, hmembersShorter, hfrontShorter, hbackShorter⟩ :=
    hlaidShorter.split
  -- Up to the insertion both are placed alike, so what comes after it differs only in the start.
  obtain ⟨rfl, rfl⟩ := hfrontShorter.unique hfront
  have hlength : frontShorter.length = before.length := hfront.length_eq
  cases hback with
  | @cons _ _ _ _ member later hplaced hlater =>
    have hend : member.offset.toNat + member.size.toNat = middleShorter + 16 * rows := by
      have htake : layout.members.take (before.length + 1) = frontShorter ++ [member] := by
        rw [hmembers, ← hlength, List.take_length_add_append]
        rfl
      rw [htake, hmembers, ← hlength, List.take_left, runningEnd_append_singleton,
        hfront.runningEnd_eq] at hgrown
      exact hgrown
    rw [hend] at hlater
    have hfinish : finish = last + 16 * rows := by
      rw [hlater.finish_eq, hbackShorter.finish_eq, finishFrom_add_rows]
    refine ⟨?_, ?_, ?_, ?_⟩
    · rw [hmembers, hmembersShorter, ← hlength, List.take_left, List.take_left]
    · rw [hmembers, ← hlength, List.getElem?_append_right (Nat.le_refl _), Nat.sub_self,
        List.getElem?_cons_zero, Option.map_some, hplaced.variable_eq]
    · rw [hmembers, hmembersShorter, ← hlength, List.drop_left, List.drop_length_add_append]
      exact hbackShorter.moved hlater
    · rw [hsize.eq_roundUp (by decide), hsizeShorter.eq_roundUp (by decide), hfinish,
        roundUp_add _ (by decide) (Nat.dvd_mul_right 16 rows)]

/-- The layout of members whose exact end is below the last row that words can name. No sum or product
leaves the words, so there is a layout; it is the one that the rules ask for. The layout of a prefix of the
members is the prefix of the layout. If one of the members makes the running end grow by whole rows of
sixteen bytes, then without it the members before it are the same and everything after it lies so much
earlier. -/
theorem std140?_conforms (vars : List Variable) (hend : finishFrom 0 vars < 2 ^ 32 - 16) :
    ∃ layout, BlockLayout.std140? vars = some layout ∧
      layout.Conforms vars ∧ (∀ other : BlockLayout, other.Conforms vars → other = layout) ∧
      (∀ first rest, vars = first ++ rest → ∃ shorter, BlockLayout.std140? first = some shorter ∧
        shorter.members = layout.members.take first.length) ∧
      ∀ before inserted after rows, vars = before ++ inserted :: after →
        runningEnd (layout.members.take (before.length + 1)) =
          runningEnd (layout.members.take before.length) + 16 * rows →
        ∃ shorter, BlockLayout.std140? (before ++ after) = some shorter ∧
          BlockLayout.Inserted shorter layout before.length inserted (16 * rows) := by
  -- A layout that ends earlier exists as well.
  have hexists : ∀ fewer, finishFrom 0 fewer ≤ finishFrom 0 vars →
      ∃ layout, BlockLayout.std140? fewer = some layout := by
    intro fewer hle
    refine exists_std140? ?_
    unfold roundUp Word.limit
    omega
  obtain ⟨layout, hlayout⟩ := hexists vars (Nat.le_refl _)
  refine ⟨layout, hlayout, (conforms_iff_eq hlayout).2 rfl,
    fun other => (conforms_iff_eq hlayout).1, ?_, ?_⟩
  · rintro first rest rfl
    rw [finishFrom_append] at hexists
    obtain ⟨shorter, hshorter⟩ := hexists first (le_finishFrom _ _)
    exact ⟨shorter, hshorter, members_of_prefix hlayout hshorter⟩
  · rintro before inserted after rows rfl hgrown
    have hle : finishFrom 0 (before ++ after) ≤ finishFrom 0 (before ++ inserted :: after) := by
      rw [finishFrom_append, finishFrom_append]
      exact finishFrom_mono (le_finishFrom _ [inserted]) after
    obtain ⟨shorter, hshorter⟩ := hexists _ hle
    exact ⟨shorter, hshorter, inserted_of_rows hlayout hshorter hgrown⟩

/-- Members of several alignments, an array and a matrix of three columns among them. -/
def mixedMembers : List Variable :=
  [{ name := "uTint", ty := .vec3 }, { name := "uGain", ty := .float },
    { name := "uTurn", ty := .mat3 }, { name := "uShift", ty := .vec2 },
    { name := "uSteps", ty := .float, arrayLen := some 3 }, { name := "uCount", ty := .int }]

/-- The matrix takes three rows, so without it the members after it lie 48 bytes earlier. -/
theorem mixedMembers_conform :
    ∃ layout shorter, finishFrom 0 mixedMembers < 2 ^ 32 - 16 ∧
      BlockLayout.std140? mixedMembers = some layout ∧ layout.Conforms mixedMembers ∧
      layout.members.map (·.offset) = [0, 12, 16, 64, 80, 128] ∧ layout.size = 144 ∧
      BlockLayout.std140? (mixedMembers.eraseIdx 2) = some shorter ∧
      shorter.members.map (·.offset) = [0, 12, 16, 32, 80] ∧ shorter.size = 96 ∧
      BlockLayout.Inserted shorter layout 2 { name := "uTurn", ty := .mat3 } 48 := by
  have hend : finishFrom 0 mixedMembers < 2 ^ 32 - 16 := by decide
  obtain ⟨layout, hlayout, hconforms, -, -, hinsert⟩ := std140?_conforms mixedMembers hend
  have hcomputed : (BlockLayout.std140? mixedMembers).map (fun layout =>
      (layout.members.map (·.offset), layout.size, runningEnd (layout.members.take 3),
        runningEnd (layout.members.take 2))) =
      some ([0, 12, 16, 64, 80, 128], 144, 64, 16) := by
    decide
  rw [hlayout, Option.map_some, Option.some.injEq, Prod.mk.injEq, Prod.mk.injEq, Prod.mk.injEq]
    at hcomputed
  obtain ⟨hoffsets, hsize, hafter, hbefore⟩ := hcomputed
  have hgrown : runningEnd (layout.members.take 3) = runningEnd (layout.members.take 2) + 16 * 3 := by
    rw [hafter, hbefore]
  obtain ⟨shorter, hshorter, hinserted⟩ :
      ∃ shorter, BlockLayout.std140? (mixedMembers.eraseIdx 2) = some shorter ∧ _ :=
    hinsert (mixedMembers.take 2) _ (mixedMembers.drop 3) 3 rfl hgrown
  have hcomputedShorter : (BlockLayout.std140? (mixedMembers.eraseIdx 2)).map (fun layout =>
      (layout.members.map (·.offset), layout.size)) = some ([0, 12, 16, 32, 80], 96) := by
    decide
  rw [hshorter, Option.map_some, Option.some.injEq, Prod.mk.injEq] at hcomputedShorter
  exact ⟨layout, shorter, hend, hlayout, hconforms, hoffsets, hsize, hshorter,
    hcomputedShorter.1, hcomputedShorter.2, hinserted⟩

end ShaderWeave
