import CrudAuth.Concurrency.Program

/-
  Programs by the operations they may come to perform,
  whatever is answered: what a contract allows at any time
  is owed to it for free.

  Main declarations:
    * `Program.Only`
    * `Program.Only.bind`
    * `Program.Only.obeys`
-/

------------------------------------------------------------
-- Footprints
------------------------------------------------------------

namespace CrudAuth

namespace Concurrency

namespace Program

variable {I : Interface}
variable {ε α β : Type}

/- Each operation that the program may perform is allowed. -/
def Only
    (allowed : I.Op → Prop) :
    Program I ε α → Prop
  | .done _ => True
  | .raise _ => True
  | .perform op next =>
      allowed op ∧ ∀ ret, Only allowed (next ret)

variable {allowed lax : I.Op → Prop}
variable {program : Program I ε α}

/- An operation with the rest of the program. -/
theorem only_step
    {op : I.Op}
    {rest : I.Ret op → Program I ε α}
    (hOp : allowed op)
    (hRest : ∀ ret, Only allowed (rest ret)) :
    Only allowed ((call op).bind rest) :=
  ⟨hOp, hRest⟩

/- A laxer reading of what is allowed. -/
theorem Only.mono
    (hOnly : Only allowed program)
    (hLax : ∀ op, allowed op → lax op) :
    Only lax program := by
  induction program with
  | done value => trivial
  | raise error => trivial
  | perform op next ih =>
      exact ⟨hLax op hOnly.1,
        fun ret => ih ret (hOnly.2 ret)⟩

/- A part followed by another. -/
theorem Only.bind
    {rest : α → Program I ε β}
    (hOnly : Only allowed program)
    (hRest : ∀ value, Only allowed (rest value)) :
    Only allowed (program.bind rest) := by
  induction program with
  | done value => exact hRest value
  | raise error => trivial
  | perform op next ih =>
      exact ⟨hOnly.1, fun ret => ih ret (hOnly.2 ret)⟩

/- What is allowed from now on keeps to the contract. -/
theorem Only.obeys
    {contract : Contract I}
    {past : List (Action I)}
    (hOnly : Only allowed program)
    (hFree : ∀ past' op,
      past <:+ past' → allowed op → contract.rule past' op) :
    Obeys contract past program fun _ _ => True := by
  induction program generalizing past with
  | done value => trivial
  | raise error => trivial
  | perform op next ih =>
      constructor
      · exact hFree past op List.suffix_rfl hOnly.1
      · intro ret _
        apply ih ret (hOnly.2 ret)
        intro past' op' hSuffix
        exact hFree past' op'
          ((List.suffix_cons _ _).trans hSuffix)

end Program

end Concurrency

end CrudAuth
