import TinyMips.Register.Basic

namespace TinyMips.Reg

/-!
# Register names

There are finitely many registers, so what holds of all of them can be computed.
A register is found again under the name it is printed with.
-/

/-- What holds of all thirty-two numbers holds of all registers. -/
theorem forall_iff
    {property : Reg → Prop} :
    (∀ reg, property reg) ↔ ∀ number < 32, property ⟨BitVec.ofNat 5 number⟩ := by
  constructor
  · intro every number _
    exact every ⟨BitVec.ofNat 5 number⟩
  · intro every reg
    have same : (⟨BitVec.ofNat 5 reg.index⟩ : Reg) = reg :=
      congrArg Reg.mk (BitVec.ofNat_toNat 5 reg.number)
    rw [← same]
    exact every reg.index reg.index_lt

/-- A property of registers can be checked at every one of them. -/
instance (property : Reg → Prop) [DecidablePred property] :
    Decidable (∀ reg, property reg) :=
  decidable_of_iff' _ forall_iff

theorem name_ne_nil :
    ∀ reg : Reg, reg.name ≠ [] := by
  decide +kernel

/-- Names are printed with letters and digits. -/
theorem isAlphanum_of_mem_name
    (reg : Reg) :
    ∀ c ∈ reg.name, c.isAlphanum = true := by
  have every : ∀ reg : Reg, reg.name.all Char.isAlphanum = true := by
    decide +kernel
  exact List.all_eq_true.mp (every reg)

/-- A register is found under its written form. -/
theorem lookup?_text :
    ∀ reg : Reg, lookup? reg.text = some reg := by
  decide +kernel

end TinyMips.Reg
