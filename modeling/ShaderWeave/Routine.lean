/-!
# Routines

What a node does in a pass over the graph, and what a uniform block does on a draw, is a finite
routine of calls. A routine only decides which call comes next from the answers it got so far, so
everything it can do to the state behind the calls is what the calls do: a property that every call
keeps is kept by every routine.

`Routine.run` performs a routine in any monad that can perform the single calls.
-/

namespace ShaderWeave

/-- A finite routine that makes calls of type `Call`, gets an answer of type `Answer c` to call `c`,
and ends with a value or an error. -/
inductive Routine (Call : Type) (Answer : Call → Type) (ε α : Type) where
  /-- End with a value. -/
  | done (value : α)
  /-- End with an error. -/
  | fail (error : ε)
  /-- Make a call and go on with its answer. -/
  | call (request : Call) (next : Answer request → Routine Call Answer ε α)

namespace Routine

variable {Call : Type} {Answer : Call → Type} {ε α β : Type}

/-- Perform `first`, then what `next` makes of its value. -/
def bind (first : Routine Call Answer ε α) (next : α → Routine Call Answer ε β) :
    Routine Call Answer ε β :=
  match first with
  | done value => next value
  | fail error => fail error
  | call request rest => call request fun answer => (rest answer).bind next

instance : Monad (Routine Call Answer ε) where
  pure := done
  bind := bind

/-- Make one call and end with its answer. -/
def perform (request : Call) : Routine Call Answer ε (Answer request) :=
  call request done

/-- End with what an outcome holds. -/
def ofExcept : Except ε α → Routine Call Answer ε α
  | .ok value => done value
  | .error error => fail error

/-- Perform the calls of a routine by `handle`, and its failure by `raise`. -/
def run {m : Type → Type} [Monad m] (raise : ε → m α) (handle : (request : Call) → m (Answer request)) :
    Routine Call Answer ε α → m α
  | done value => pure value
  | fail error => raise error
  | call request next => do
    let answer ← handle request
    (next answer).run raise handle

@[simp]
theorem bind_done (value : α) (next : α → Routine Call Answer ε β) :
    (done value : Routine Call Answer ε α).bind next = next value := rfl

@[simp]
theorem bind_fail (error : ε) (next : α → Routine Call Answer ε β) :
    (fail error : Routine Call Answer ε α).bind next = fail error := rfl

@[simp]
theorem bind_call (request : Call) (rest : Answer request → Routine Call Answer ε α)
    (next : α → Routine Call Answer ε β) :
    (call request rest).bind next = call request fun answer => (rest answer).bind next := rfl

@[simp]
theorem bind_done_right (routine : Routine Call Answer ε α) : routine.bind done = routine := by
  induction routine with
  | done value => rfl
  | fail error => rfl
  | call request rest ih => simp only [bind_call, ih]

theorem bind_assoc {γ : Type} (routine : Routine Call Answer ε α)
    (next : α → Routine Call Answer ε β) (last : β → Routine Call Answer ε γ) :
    (routine.bind next).bind last = routine.bind fun value => (next value).bind last := by
  induction routine with
  | done value => rfl
  | fail error => rfl
  | call request rest ih => simp only [bind_call, ih]

instance : LawfulMonad (Routine Call Answer ε) := LawfulMonad.mk' _
  (fun routine => bind_done_right routine)
  (fun _ _ => rfl)
  (fun routine next last => bind_assoc routine next last)

end Routine

/-- The state that a computation ends in, with a value or with an error. -/
def finalState {ε σ α : Type} : EStateM.Result ε σ α → σ
  | .ok _ state | .error _ state => state

end ShaderWeave
