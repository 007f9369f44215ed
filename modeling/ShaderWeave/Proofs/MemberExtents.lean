import ShaderWeave.Proofs.DrawIsolation
import ShaderWeave.Proofs.OrderedStore

/-!
# Writes Stay in Their Members

A write names a member, and no bytes but those of the member should change. This holds with one exception.
A setter that names no element writes the first one, also of an array that has none. Then the value goes
to where the array would begin: into the members after it, or past the end of the block, which ends
everything.

So there are two conditions on the members of a block. If no empty array has a type that can be set
without an index, every setter stays in its member. If there are such arrays, but a value in their place
would still lie in the block, setters may change other members, but no setter overruns, and neither does a
routine of them. Both conditions are exact: where they fail, one setter on a blank block shows it.

## Main definitions

* `Write.IsSetter`, `Updating.BySetters`: the writes that a block has setters for.
* `BlockShape.Reachable`: the states that writes lead to.
* `BlockShape.StaysInMember`: a write changes nothing outside the member that it names.
* `BlockLayout.Guarded`, `BlockLayout.Roomy`: the two conditions.

## Main results

* `Tracks.write_cases`: all that can become of a write.
* `Tracks.staysInMember`: which writes stay in their members.
* `Tracks.run_ne_overrun`: a routine of setters does not overrun if the block is roomy.
* `staysInMember_iff_guarded`, `exists_answerWrite_iff_roomy`, `neverOverruns_iff_roomy`: the conditions
  are exact.
* `added_block_writes_stay`: all this, for every block that can be added.
-/

namespace ShaderWeave

open Std140

/-! ## Setters -/

/-- There is a setter for a whole value of the type. -/
def ValueType.HasSetter (ty : ValueType) : Prop :=
  ty ∈ [float, int, vec2, ivec2, vec4, mat3, mat4]

/-- There is a setter for an element of an array of the type. -/
def ValueType.HasElementSetter (ty : ValueType) : Prop :=
  ty ∈ [vec3, vec4, mat4]

instance (ty : ValueType) : Decidable ty.HasSetter :=
  inferInstanceAs (Decidable (ty ∈ _))

instance (ty : ValueType) : Decidable ty.HasElementSetter :=
  inferInstanceAs (Decidable (ty ∈ _))

/-- The write is one that a setter makes. -/
def Write.IsSetter (w : Write) : Prop :=
  if w.index.isSome then w.value.ty.HasElementSetter else w.value.ty.HasSetter

instance (w : Write) : Decidable w.IsSetter :=
  inferInstanceAs (Decidable (if w.index.isSome then _ else _))

/-- On every way through the update, all writes are made by setters. -/
def Updating.BySetters : Updating Unit → Prop
  | .done _ | .fail _ => True
  | .call request next => (∀ w, request = .write w → w.IsSetter) ∧ ∀ answer, BySetters (next answer)

theorem Updating.bySetters_write {w : Write} (h : w.IsSetter) : (Updating.write w).BySetters := by
  refine ⟨fun other hother => ?_, fun answer => ?_⟩
  · cases hother
    exact h
  · cases answer <;> trivial

/-- Of every type that has a setter, there is a value whose first byte is not zero. -/
theorem ValueType.HasSetter.exists_datum {ty : ValueType} (h : ty.HasSetter) :
    ∃ d : Datum, d.ty = ty ∧ d.bytes[0]? = some 1 := by
  simp only [HasSetter, List.mem_cons, List.not_mem_nil, or_false] at h
  rcases h with rfl | rfl | rfl | rfl | rfl | rfl | rfl
  · exact ⟨.float ⟨1⟩, rfl, rfl⟩
  · exact ⟨.int 1, rfl, rfl⟩
  · exact ⟨.vec2 ⟨⟨1⟩, .zero⟩, rfl, rfl⟩
  · exact ⟨.ivec2 1 0, rfl, rfl⟩
  · exact ⟨.vec4 ⟨⟨1⟩, .zero, .zero, .zero⟩, rfl, rfl⟩
  · exact ⟨.mat3 ⟨⟨⟨1⟩, .zero, .zero⟩, ⟨.zero, .zero, .zero⟩, ⟨.zero, .zero, .zero⟩⟩, rfl, rfl⟩
  · exact ⟨.mat4 ⟨⟨⟨1⟩, .zero, .zero, .zero⟩, ⟨.zero, .zero, .zero, .zero⟩,
      ⟨.zero, .zero, .zero, .zero⟩, ⟨.zero, .zero, .zero, .zero⟩⟩, rfl, rfl⟩

/-! ## Conditions -/

/-- Setters without an index find an element: no array of a type that has one is empty. -/
def BlockLayout.Guarded (layout : BlockLayout) : Prop :=
  ∀ member ∈ layout.members, member.arrayLen = some 0 → ¬ member.ty.HasSetter

/-- Where they do not, a value still lies in the block. -/
def BlockLayout.Roomy (layout : BlockLayout) : Prop :=
  ∀ member ∈ layout.members, member.arrayLen = some 0 → member.ty.HasSetter →
    member.offset.toNat + Std140.size member.ty ≤ layout.size.toNat

instance (layout : BlockLayout) : Decidable layout.Guarded :=
  inferInstanceAs (Decidable (∀ member ∈ layout.members, _))

instance (layout : BlockLayout) : Decidable layout.Roomy :=
  inferInstanceAs (Decidable (∀ member ∈ layout.members, _))

namespace BlockShape

/-- Writes lead to the state from the blank block, whatever is said to them. -/
inductive Reachable (shape : BlockShape) : UpdateState → Prop where
  /-- Before the first write. -/
  | blank : Reachable shape { buffer := shape.blank, records := [] }
  /-- After one more write. -/
  | write {state next : UpdateState} {w : Write} {answer : Except WriteError Unit}
      (h : Reachable shape state) (hanswer : shape.answerWrite w state = .ok answer next) :
      Reachable shape next

/-- The write is refused and changes nothing, or it is stored and changes no bytes but those of the member
that it names. -/
def StaysInMember (shape : BlockShape) (state : UpdateState) (w : Write) : Prop :=
  (∃ error, shape.answerWrite w state = .ok (.error error) state) ∨
    ∃ next, shape.answerWrite w state = .ok (.ok ()) next ∧
      ∃ member ∈ shape.layout.members, member.name = w.member ∧
        ∀ index, ¬ (member.offset.toNat ≤ index ∧ index < member.finish) →
          next.buffer.bytes[index]? = state.buffer.bytes[index]?

variable {shape : BlockShape} {vars : List Variable} {last : Option Nat} {buffer : BlockBuffer}
  {state next : UpdateState} {w : Write} {position : Nat} {member : Member}

/-! ## One Write -/

theorem tracks_blank (shape : BlockShape) : shape.Tracks none shape.blank := by
  refine ⟨rfl, rfl, fun previous hprevious => ?_⟩
  cases hprevious

/-- An array of which an element is written has elements. -/
theorem Accepts.arrayLen_ne_zero (h : shape.Accepts last w position member)
    (hindex : w.index.isSome) : member.arrayLen ≠ some 0 := by
  intro hzero
  obtain ⟨i, hi⟩ := Option.isSome_iff_exists.1 hindex
  obtain ⟨len, hlen, hlt⟩ := h.index i hi
  cases hzero.symm.trans hlen
  exact absurd hlt (UInt32.not_lt.2 (UInt32.zero_le))

/-- The answer to a write that overruns. -/
theorem answerWrite_of_overrun (h : shape.write state.buffer w = .overrun) :
    shape.answerWrite w state = .error .overrun state := by
  simp only [answerWrite, answer, h]
  rfl

/-- A write that is accepted overruns if there is no room for it. -/
theorem Tracks.overrun_of_accepts (hnames : (shape.layout.members.map (·.name)).Nodup)
    (h : shape.Tracks last buffer) (haccepts : shape.Accepts last w position member)
    (hroom : shape.layout.size.toNat < member.elementStart w.element + Std140.size member.ty) :
    shape.write buffer w = .overrun := by
  rw [← h.size_eq, haccepts.ty_eq, ← Datum.length_bytes] at hroom
  rw [write_of_accepts hnames h.cursor_eq haccepts, BlockBuffer.store?, if_neg (Nat.not_le.2 hroom)]
  rfl

/-- All that can become of a write. -/
theorem Tracks.write_cases (hnames : (shape.layout.members.map (·.name)).Nodup)
    (h : shape.Tracks last buffer) (w : Write) :
    (∃ error, shape.write buffer w = .refused error) ∨
      ∃ position member, shape.Accepts last w position member ∧
        ((∃ after, buffer.store?
            { offset := member.elementStart w.element, bytes := w.value.bytes } position = some after ∧
          shape.write buffer w = .stored after ∧ shape.Tracks (some position) after) ∨
        (shape.layout.size.toNat < member.elementStart w.element + Std140.size member.ty ∧
          shape.write buffer w = .overrun)) := by
  rcases refuses_or_accepts shape w h.last_lt with ⟨error, hrefuses⟩ | ⟨position, member, haccepts⟩
  · exact .inl ⟨error, write_of_refuses hnames h.cursor_eq hrefuses⟩
  refine .inr ⟨position, member, haccepts, ?_⟩
  rcases Nat.lt_or_ge shape.layout.size.toNat
    (member.elementStart w.element + Std140.size member.ty) with hover | hroom
  · exact .inr ⟨hover, h.overrun_of_accepts hnames haccepts hover⟩
  · exact .inl (h.stored_of_accepts hnames haccepts hroom)

/-- Writes keep track of the member written last. -/
theorem Tracks.answerWrite (hnames : (shape.layout.members.map (·.name)).Nodup)
    (h : shape.Tracks last state.buffer) {answer : Except WriteError Unit}
    (hanswer : shape.answerWrite w state = .ok answer next) :
    ∃ reached, shape.Tracks reached next.buffer := by
  rcases h.write_cases hnames w with
    ⟨error, hwrite⟩ | ⟨position, member, -, ⟨after, -, hwrite, hafter⟩ | ⟨-, hwrite⟩⟩
  · rw [answerWrite_of_refused hwrite] at hanswer
    cases hanswer
    exact ⟨last, h⟩
  · rw [answerWrite_of_stored hwrite] at hanswer
    cases hanswer
    exact ⟨some position, hafter⟩
  · rw [answerWrite_of_overrun hwrite] at hanswer
    cases hanswer

theorem Reachable.tracks (hnames : (shape.layout.members.map (·.name)).Nodup)
    (h : shape.Reachable state) : ∃ last, shape.Tracks last state.buffer := by
  induction h with
  | blank => exact ⟨none, tracks_blank shape⟩
  | write _ hanswer ih =>
    obtain ⟨last, hlast⟩ := ih
    exact hlast.answerWrite hnames hanswer

/-! ## Writes to Elements That Are There -/

/-- A write stays in its member, unless it names no element of an array that has none. -/
theorem Tracks.staysInMember (hconforms : shape.layout.Conforms vars)
    (hnames : (shape.layout.members.map (·.name)).Nodup) (h : shape.Tracks last state.buffer)
    (hindex : ∀ member ∈ shape.layout.members, member.name = w.member → member.ty = w.value.ty →
      member.arrayLen = some 0 → w.index.isSome) :
    shape.StaysInMember state w := by
  rcases h.write_cases hnames w with ⟨error, hwrite⟩ | ⟨position, member, haccepts, hwrite⟩
  · exact .inl ⟨error, answerWrite_of_refused hwrite⟩
  have hmem := List.mem_of_getElem? haccepts.member_eq
  have hlen : member.arrayLen ≠ some 0 := fun hzero =>
    haccepts.arrayLen_ne_zero (hindex member hmem haccepts.name_eq haccepts.ty_eq hzero) hzero
  have hcell := hconforms.cell_le_finish hmem (haccepts.element_lt hlen)
  rcases hwrite with ⟨after, hstore, hwrite, -⟩ | ⟨hroom, -⟩
  · refine .inr ⟨_, answerWrite_of_stored hwrite, member, hmem, haccepts.name_eq, ?_⟩
    intro index houtside
    -- The value lies in its cell, and the cell in the member.
    have hstart : member.offset.toNat ≤ member.elementStart w.element := Nat.le_add_right _ _
    have hcellOutside : ¬ (member.elementStart w.element ≤ index ∧
        index < member.elementStart w.element + Std140.size member.ty) := by omega
    rw [BlockBuffer.getElem?_store hstore, Datum.length_bytes, ← haccepts.ty_eq, if_neg hcellOutside]
  · have hinside := hconforms.inside member hmem
    omega

/-- In a guarded block, every setter does. -/
theorem Tracks.staysInMember_of_guarded (hconforms : shape.layout.Conforms vars)
    (hnames : (shape.layout.members.map (·.name)).Nodup) (hguarded : shape.layout.Guarded)
    (h : shape.Tracks last state.buffer) (hsetter : w.IsSetter) : shape.StaysInMember state w := by
  refine h.staysInMember hconforms hnames fun member hmem _ hty hzero => ?_
  by_contra hindex
  rw [Write.IsSetter, if_neg hindex, ← hty] at hsetter
  exact hguarded member hmem hzero hsetter

/-- In a roomy block, no setter overruns. -/
theorem Tracks.write_ne_overrun (hconforms : shape.layout.Conforms vars)
    (hnames : (shape.layout.members.map (·.name)).Nodup) (hroomy : shape.layout.Roomy)
    (h : shape.Tracks last buffer) (hsetter : w.IsSetter) : shape.write buffer w ≠ .overrun := by
  intro hoverrun
  rcases h.write_cases hnames w with
    ⟨error, hwrite⟩ | ⟨position, member, haccepts, ⟨after, -, hwrite, -⟩ | ⟨hroom, -⟩⟩
  · cases hoverrun.symm.trans hwrite
  · cases hoverrun.symm.trans hwrite
  have hmem := List.mem_of_getElem? haccepts.member_eq
  by_cases hlen : member.arrayLen = some 0
  · -- The write names no element, so it goes to the offset of the member, where there is room.
    have hindex : w.index = none := by
      by_contra hsome
      exact haccepts.arrayLen_ne_zero (Option.isSome_iff_ne_none.2 hsome) hlen
    have hstart : member.elementStart w.element = member.offset.toNat := by
      simp [Member.elementStart, Write.element, hindex]
    rw [Write.IsSetter, hindex, ← haccepts.ty_eq] at hsetter
    have hfits := hroomy member hmem hlen hsetter
    omega
  · have hcell := hconforms.cell_le_finish hmem (haccepts.element_lt hlen)
    have hinside := hconforms.inside member hmem
    omega

/-! ## Routines of Setters -/

/-- In a roomy block, what a routine of setters calls for is answered. -/
theorem Tracks.exists_answer (hconforms : shape.layout.Conforms vars)
    (hnames : (shape.layout.members.map (·.name)).Nodup) (hroomy : shape.layout.Roomy)
    (h : shape.Tracks last state.buffer) {request : UpdateCall}
    (hsetter : ∀ w, request = .write w → w.IsSetter) :
    ∃ answer next reached, shape.answer request state = .ok answer next ∧
      shape.Tracks reached next.buffer := by
  cases request with
  | record entry => exact ⟨(), _, last, rfl, h⟩
  | write w =>
    have hroom := h.write_ne_overrun hconforms hnames hroomy (hsetter w rfl)
    rcases h.write_cases hnames w with
      ⟨error, hwrite⟩ | ⟨position, member, -, ⟨after, -, hwrite, hafter⟩ | ⟨-, hwrite⟩⟩
    · exact ⟨_, _, last, answerWrite_of_refused hwrite, h⟩
    · exact ⟨_, _, some position, answerWrite_of_stored hwrite, hafter⟩
    · exact absurd hwrite hroom

/-- In a roomy block, a routine of setters does not overrun. -/
theorem Tracks.run_ne_overrun (hconforms : shape.layout.Conforms vars)
    (hnames : (shape.layout.members.map (·.name)).Nodup) (hroomy : shape.layout.Roomy)
    {update : Updating Unit} (hsetters : update.BySetters) (h : shape.Tracks last state.buffer) :
    shape.run update state ≠ .error .overrun next := by
  -- The answer to a call decides how the routine goes on, so the induction is for all states.
  induction update generalizing state last with
  | done value =>
    intro hrun
    cases hrun
  | fail error =>
    intro hrun
    cases hrun
  | call request rest ih =>
    obtain ⟨answer, middle, reached, hanswer, hmiddle⟩ :=
      h.exists_answer hconforms hnames hroomy hsetters.1
    rw [run_call, EStateM.bind, hanswer]
    exact ih answer (hsetters.2 answer) hmiddle

/-- In a roomy block, a routine of setters refreshes the block. -/
theorem exists_refresh_of_roomy (hconforms : shape.layout.Conforms vars)
    (hnames : (shape.layout.members.map (·.name)).Nodup) (hroomy : shape.layout.Roomy)
    {update : Updating Unit} (hsetters : update.BySetters) :
    ∃ refreshed, shape.refresh update = some refreshed :=
  exists_refresh_of_ne_overrun fun _ =>
    (tracks_blank shape).run_ne_overrun hconforms hnames hroomy hsetters

/-! ## Writes to Empty Arrays -/

/-- On a blank block, a setter without an index is accepted for every member whose type has one, and
writes at the offset of the member. -/
theorem exists_accepted_setter (hmem : member ∈ shape.layout.members) (hty : member.ty.HasSetter) :
    ∃ w position, w.IsSetter ∧ shape.Accepts none w position member ∧
      member.elementStart w.element = member.offset.toNat ∧ w.value.bytes[0]? = some 1 := by
  obtain ⟨d, hd, hbyte⟩ := hty.exists_datum
  obtain ⟨position, hmember⟩ := List.getElem?_of_mem hmem
  refine ⟨{ member := member.name, value := d }, position, ?_, ?_, ?_, hbyte⟩
  · rw [← hd] at hty
    exact hty
  · refine ⟨hmember, rfl, hd.symm, fun previous hprevious => ?_, fun i hi => ?_⟩
    · cases hprevious
    · cases hi
  · simp [Member.elementStart, Write.element]

/-- A setter without an index does not stay in an empty array. -/
theorem exists_not_staysInMember (hconforms : shape.layout.Conforms vars)
    (hnames : (shape.layout.members.map (·.name)).Nodup) (hmem : member ∈ shape.layout.members)
    (hlen : member.arrayLen = some 0) (hty : member.ty.HasSetter) :
    ∃ w, w.IsSetter ∧ ¬ shape.StaysInMember { buffer := shape.blank, records := [] } w := by
  obtain ⟨w, position, hsetter, haccepts, hstart, hbyte⟩ := exists_accepted_setter hmem hty
  refine ⟨w, hsetter, ?_⟩
  -- Without room the setter has no answer at all; with room it is stored, outside the member.
  rcases Nat.lt_or_ge shape.layout.size.toNat
    (member.elementStart w.element + Std140.size member.ty) with hover | hroom
  · have hwrite := (tracks_blank shape).overrun_of_accepts hnames haccepts hover
    have hanswer : shape.answerWrite w { buffer := shape.blank, records := [] } = _ :=
      answerWrite_of_overrun hwrite
    rintro (⟨error, herror⟩ | ⟨next, hnext, -⟩)
    · cases hanswer.symm.trans herror
    · cases hanswer.symm.trans hnext
  · obtain ⟨after, hstore, hwrite, -⟩ := (tracks_blank shape).stored_of_accepts hnames haccepts hroom
    have hanswer : shape.answerWrite w { buffer := shape.blank, records := [] } = _ :=
      answerWrite_of_stored hwrite
    rintro (⟨error, herror⟩ | ⟨next, hnext, other, hother, hname, hkeeps⟩)
    · cases hanswer.symm.trans herror
    cases hanswer.symm.trans hnext
    obtain rfl : other = member :=
      List.inj_on_of_nodup_map hnames hother hmem (hname.trans haccepts.name_eq.symm)
    -- The member has no bytes, so the byte at its offset should still be zero, and it is not.
    have hempty : other.finish = other.offset.toNat := by
      rw [Member.finish, hconforms.memberSize other hmem]
      simp [Variable.elementCount, hlen]
    have hkept := hkeeps other.offset.toNat (by omega)
    have hlength : 0 < w.value.bytes.length := (List.getElem?_eq_some_iff.1 hbyte).1
    rw [hstart] at hstore
    rw [BlockBuffer.getElem?_store hstore, if_pos ⟨Nat.le_refl _, Nat.lt_add_of_pos_right hlength⟩,
      Nat.sub_self, hbyte] at hkept
    rw [bytes_blank, List.getElem?_replicate] at hkept
    split at hkept <;> cases hkept

/-- Where a value in the place of an empty array would not lie in the block, a setter without an index
overruns. -/
theorem exists_overrun_of_not_roomy (hnames : (shape.layout.members.map (·.name)).Nodup)
    (h : ¬ shape.layout.Roomy) : ∃ w, w.IsSetter ∧ shape.write shape.blank w = .overrun := by
  simp only [BlockLayout.Roomy, not_forall, Nat.not_le] at h
  obtain ⟨member, hmem, -, hty, hover⟩ := h
  obtain ⟨w, position, hsetter, haccepts, hstart, -⟩ := exists_accepted_setter hmem hty
  rw [← hstart] at hover
  exact ⟨w, hsetter, (tracks_blank shape).overrun_of_accepts hnames haccepts hover⟩

/-! ## When Setters Are Safe -/

/-- Setters stay in their members in every state exactly if the block is guarded. -/
theorem staysInMember_iff_guarded (hconforms : shape.layout.Conforms vars)
    (hnames : (shape.layout.members.map (·.name)).Nodup) :
    (∀ state, shape.Reachable state → ∀ w : Write, w.IsSetter → shape.StaysInMember state w) ↔
      shape.layout.Guarded := by
  constructor
  · intro hstays member hmem hlen hty
    obtain ⟨w, hsetter, hleaves⟩ := exists_not_staysInMember hconforms hnames hmem hlen hty
    exact hleaves (hstays _ .blank w hsetter)
  · intro hguarded state hstate w hsetter
    obtain ⟨last, hlast⟩ := hstate.tracks hnames
    exact hlast.staysInMember_of_guarded hconforms hnames hguarded hsetter

/-- Setters are answered in every state exactly if the block is roomy. -/
theorem exists_answerWrite_iff_roomy (hconforms : shape.layout.Conforms vars)
    (hnames : (shape.layout.members.map (·.name)).Nodup) :
    (∀ state, shape.Reachable state → ∀ w : Write, w.IsSetter →
      ∃ answer next, shape.answerWrite w state = .ok answer next) ↔ shape.layout.Roomy := by
  constructor
  · intro hanswers
    by_contra hroomy
    obtain ⟨w, hsetter, hwrite⟩ := exists_overrun_of_not_roomy hnames hroomy
    obtain ⟨answer, next, hanswer⟩ := hanswers _ .blank w hsetter
    rw [answerWrite_of_overrun hwrite] at hanswer
    cases hanswer
  · intro hroomy state hstate w hsetter
    obtain ⟨last, hlast⟩ := hstate.tracks hnames
    have hcall : ∀ other, UpdateCall.write w = .write other → other.IsSetter := by
      intro other hother
      cases hother
      exact hsetter
    obtain ⟨answer, next, -, hanswer, -⟩ := hlast.exists_answer hconforms hnames hroomy hcall
    exact ⟨answer, next, hanswer⟩

/-- A routine that makes one write, which overruns, does not refresh the block. -/
theorem refresh_write_eq_none (h : shape.write shape.blank w = .overrun) :
    shape.refresh (Updating.write w) = none := by
  have hanswer : shape.answer (.write w) { buffer := shape.blank, records := [] } =
      .error .overrun { buffer := shape.blank, records := [] } := answerWrite_of_overrun h
  have hrun : shape.run (Updating.write w) { buffer := shape.blank, records := [] } =
      .error .overrun { buffer := shape.blank, records := [] } := by
    rw [Updating.write, run_call, EStateM.bind, hanswer]
  rw [refresh, EStateM.run, hrun]

end BlockShape

/-! ## Blocks That Are Added -/

namespace Registry

/-- Variables of which none repeats a name have different names, and none that was seen before. -/
theorem nodup_of_firstRepeated {seen : List String} {vars : List Variable}
    (h : firstRepeated seen vars = none) :
    (vars.map (·.name)).Nodup ∧ ∀ var ∈ vars, var.name ∉ seen := by
  induction vars generalizing seen with
  | nil => exact ⟨.nil, fun var hvar => absurd hvar List.not_mem_nil⟩
  | cons var rest ih =>
    rw [firstRepeated] at h
    split at h
    · cases h
    rename_i hfresh
    obtain ⟨hnodup, hrest⟩ := ih h
    constructor
    · refine List.nodup_cons.2 ⟨fun hmem => ?_, hnodup⟩
      obtain ⟨other, hother, hname⟩ := List.mem_map.1 hmem
      exact hrest other hother (hname ▸ List.mem_cons_self)
    · intro other hother
      rcases List.mem_cons.1 hother with rfl | hother
      · simpa using hfresh
      · exact fun hseen => hrest other hother (List.mem_cons_of_mem _ hseen)

/-- The members of a block that is added have different names. -/
theorem nodup_of_addBlock {request : BlockRequest} {r r' : Registry} {binding : UInt32}
    (h : addBlock request r = .ok binding r') : (request.members.map (·.name)).Nodup := by
  unfold addBlock at h
  split at h
  · cases h
  · split at h
    · cases h
    · cases h
    · rename_i hfirst _
      exact (nodup_of_firstRepeated hfirst).1

end Registry

/-- The block cannot end a draw or the trial of a compilation: wherever it stands in a shader, refreshing
it in any buffer gives a result, and its trial does not overrun. -/
structure RegisteredBlock.NeverOverruns (registered : RegisteredBlock) : Prop where
  /-- In a draw. -/
  updates : ∀ (shader : Shader) (index : Nat), shader.blocks[index]? = some registered →
    ∀ parameters draw staging, ∃ staged,
      shader.updateBlockIn parameters draw index staging = some staged
  /-- In a compilation. -/
  tried : ∀ parameters stage index state failed,
    tryUpdate parameters stage registered index state ≠ .error .overrun failed

/-- A block that is refreshed by every draw never overruns. -/
theorem RegisteredBlock.neverOverruns_of_refresh {registered : RegisteredBlock}
    (h : ∀ parameters draw, ∃ refreshed, registered.refreshFor parameters draw = some refreshed) :
    registered.NeverOverruns := by
  constructor
  · intro shader index hindex parameters draw staging
    obtain ⟨refreshed, hrefreshed⟩ := h parameters draw
    rw [refreshFor] at hrefreshed
    rw [Shader.updateBlockIn_eq, Shader.updateBlock_eq, hindex, Option.bind_some, hrefreshed]
    exact ⟨_, rfl⟩
  · intro parameters stage index state failed hfailed
    obtain ⟨refreshed, hrefreshed⟩ := h parameters .dryRun
    rw [refreshFor] at hrefreshed
    simp only [tryUpdate, hrefreshed] at hfailed
    cases herror : refreshed.error with
    | none =>
      rw [herror] at hfailed
      cases hfailed
    | some error =>
      rw [herror] at hfailed
      cases hfailed

/-- A block that is not refreshed by the draw of the trial overruns. -/
theorem RegisteredBlock.not_neverOverruns {registered : RegisteredBlock} (parameters : ParameterStore)
    (h : registered.refreshFor parameters .dryRun = none) : ¬ registered.NeverOverruns := by
  intro hnever
  rw [refreshFor] at h
  have htry : tryUpdate parameters registered.block.stage registered 0 {} =
      .error .overrun (CompileState.afterTrial {} (.update registered.block.stage 0) []) := by
    simp only [tryUpdate, h]
  exact hnever.tried parameters _ 0 {} _ htry

/-- With any routine of setters the block never overruns, exactly if it is roomy. -/
theorem RegisteredBlock.neverOverruns_iff_roomy {registered : RegisteredBlock} {vars : List Variable}
    (hconforms : registered.block.shape.layout.Conforms vars)
    (hnames : (registered.block.shape.layout.members.map (·.name)).Nodup) :
    (∀ update : UpdateRoutine, (∀ draw parameters, (update draw parameters).BySetters) →
      { registered with update }.NeverOverruns) ↔ registered.block.layout.Roomy := by
  constructor
  · intro hnever
    by_contra hroomy
    -- A routine of one setter is enough, since it overruns in the trial.
    obtain ⟨w, hsetter, hwrite⟩ := BlockShape.exists_overrun_of_not_roomy hnames hroomy
    have hsetters : ∀ (_ : DrawContext) (_ : ParameterStore), (Updating.write w).BySetters :=
      fun _ _ => Updating.bySetters_write hsetter
    refine not_neverOverruns {} ?_ (hnever (fun _ _ => Updating.write w) hsetters)
    exact BlockShape.refresh_write_eq_none hwrite
  · intro hroomy update hsetters
    refine neverOverruns_of_refresh fun parameters draw => ?_
    exact BlockShape.exists_refresh_of_roomy hconforms hnames hroomy (hsetters draw parameters)

/-- Writes stay in their members, except those to empty arrays that name no element. Take any block that
can be added. In every state that writes can lead to, a write that names an element, or a member other
than an empty array, is refused and changes nothing, or changes bytes of its member only. All setters do
so exactly if no empty array has a type with a setter that names no element. No setter overruns the block
exactly if a value in the place of such an array would still lie in it; and exactly then neither a draw
nor the trial of a compilation is ended by the block, whatever routine of setters it has. -/
theorem added_block_writes_stay {request : BlockRequest} {r after : Registry} {binding : UInt32}
    (h : Registry.addBlock request r = .ok binding after) :
    ∃ registered, after.blocks = r.blocks ++ [registered] ∧ registered.IsFor request r.stage ∧
      (∀ state, registered.block.shape.Reachable state → ∀ w : Write,
        (w.index.isSome ∨ ∀ member ∈ registered.block.layout.members, member.name = w.member →
          member.arrayLen ≠ some 0) → registered.block.shape.StaysInMember state w) ∧
      ((∀ state, registered.block.shape.Reachable state → ∀ w : Write, w.IsSetter →
        registered.block.shape.StaysInMember state w) ↔ registered.block.layout.Guarded) ∧
      ((∀ state, registered.block.shape.Reachable state → ∀ w : Write, w.IsSetter →
        ∃ answer next, registered.block.shape.answerWrite w state = .ok answer next) ↔
          registered.block.layout.Roomy) ∧
      ((∀ update : UpdateRoutine, (∀ draw parameters, (update draw parameters).BySetters) →
        { registered with update }.NeverOverruns) ↔ registered.block.layout.Roomy) := by
  obtain ⟨-, -, registered, hfor, hblocks⟩ := Registry.blocks_of_addBlock h
  have hconforms : registered.block.shape.layout.Conforms request.members :=
    (std140?_isStd140 hfor.layout_eq).conforms
  have hnames : (registered.block.shape.layout.members.map (·.name)).Nodup := by
    have hmembers := Registry.nodup_of_addBlock h
    rw [← hconforms.variables_eq, List.map_map] at hmembers
    exact hmembers
  refine ⟨registered, hblocks, hfor, ?_, BlockShape.staysInMember_iff_guarded hconforms hnames,
    BlockShape.exists_answerWrite_iff_roomy hconforms hnames,
    RegisteredBlock.neverOverruns_iff_roomy hconforms hnames⟩
  intro state hstate w hw
  obtain ⟨last, hlast⟩ := hstate.tracks hnames
  refine hlast.staysInMember hconforms hnames fun member hmem hname _ hzero => ?_
  rcases hw with hindex | hnonempty
  · exact hindex
  · exact absurd hzero (hnonempty member hmem hname)

/-- A block of a float, an empty array of vectors, which have no setter without an index, and an array of
matrices. -/
def sparseRequest : BlockRequest where
  name := "Sparse"
  members :=
    [{ name := "uGain", ty := .float }, { name := "uNone", ty := .vec3, arrayLen := some 0 },
      { name := "uTurns", ty := .mat4, arrayLen := some 2 }]
  update := some fun _ _ => .done ()

/-- The block can be added, and all its setters stay in their members. -/
theorem sparseRequest_writes_stay :
    ∃ after registered, Registry.addBlock sparseRequest { stage := .vertex } = .ok 0 after ∧
      after.blocks = [registered] ∧ registered.block.layout.Guarded ∧
      (∀ state, registered.block.shape.Reachable state → ∀ w : Write, w.IsSetter →
        registered.block.shape.StaysInMember state w) ∧
      ∀ update : UpdateRoutine, (∀ draw parameters, (update draw parameters).BySetters) →
        { registered with update }.NeverOverruns := by
  obtain ⟨after, hadd⟩ : ∃ after,
      Registry.addBlock sparseRequest { stage := .vertex } = .ok 0 after := ⟨_, rfl⟩
  obtain ⟨registered, hblocks, hfor, -, hstays, -, hnever⟩ := added_block_writes_stay hadd
  have hlayout : registered.block.layout =
      (BlockLayout.std140? sparseRequest.members).getD default := by
    rw [hfor.layout_eq]
    rfl
  have hguarded : registered.block.layout.Guarded := by
    rw [hlayout]
    decide
  have hroomy : registered.block.layout.Roomy := by
    rw [hlayout]
    decide
  exact ⟨after, registered, hadd, hblocks, hguarded, hstays.2 hguarded, hnever.2 hroomy⟩

/-- A fragment stage with one block, whose routine writes to the empty array `uSpare`. -/
def spareDesign (others : List Variable) : Design where
  name := "spare"
  vertex := []
  fragment :=
    [.scripted
      { name := "spare"
        reported := []
        setup :=
          [{ action := .addBlock
              { name := "Spare"
                members := { name := "uSpare", ty := .float, arrayLen := some 0 } :: others
                writes := some
                  [{ action := { member := "uSpare", source := .given (.float .one) } }] } }] }]

/-- If there is a member after the empty array, what is written to the array is found in that member. If
there is none, the trial of the routine overruns. -/
theorem emptyArray_write_leaves_member :
    (∃ shader done, ((spareDesign [{ name := "uNext", ty := .float }]).model.compile
        { target := .vulkan }).outcome = .ok shader ∧
      (shader.blocks.map fun registered => registered.block.layout.members.map fun member =>
        (member.name, member.offset, member.size)) = [[("uSpare", 0, 0), ("uNext", 0, 4)]] ∧
      shader.updateUniforms {} .plain shader.stagingBuffers = some done ∧
      done.staging = [[0, 0, 128, 63] ++ List.replicate 12 0]) ∧
    ((spareDesign []).model.compile { target := .vulkan }).outcome = .error .overrun := by
  have hcompiles : ((spareDesign [{ name := "uNext", ty := .float }]).model.compile
      { target := .vulkan }).outcome.toOption.map (fun shader =>
        (shader.blocks.map fun registered => registered.block.layout.members.map fun member =>
          (member.name, member.offset, member.size),
        (shader.updateUniforms {} .plain shader.stagingBuffers).map (·.staging))) =
      some ([[("uSpare", 0, 0), ("uNext", 0, 4)]],
        some [[0, 0, 128, 63] ++ List.replicate 12 0]) := by
    decide +kernel
  obtain ⟨shader, hshader, hcomputed⟩ := exists_ok_of_map_eq hcompiles
  obtain ⟨hmembers, hdrawn⟩ := Prod.mk.inj hcomputed
  obtain ⟨done, hdone, hstaging⟩ := Option.map_eq_some_iff.1 hdrawn
  refine ⟨⟨shader, done, hshader, hmembers, hdone, hstaging⟩, ?_⟩
  have hfailure : ((spareDesign []).model.compile { target := .vulkan }).outcome.map (fun _ => ()) =
      .error .overrun := by
    decide +kernel
  exact eq_error_of_map_eq hfailure

end ShaderWeave
