import TinyMips.Word

namespace TinyMips

/-!
# Registers

The machine has thirty-two registers. Each has a number and a name by its role
in calls; source text may use either, with or without a leading `$`, and one
register has a second name.
-/

/-- A general-purpose register, known by its number. -/
structure Reg where
  number : BitVec 5
  deriving DecidableEq, Repr

namespace Reg

/-- The register that always reads zero. -/
def zero : Reg := ⟨0⟩

/-- The register's place in the register file. -/
def index (reg : Reg) : Nat :=
  reg.number.toNat

/-- A register's number is below thirty-two. -/
theorem index_lt (reg : Reg) : reg.index < 32 :=
  reg.number.isLt

/-- The register with a given number, if there is one. -/
def ofIndex? (index : Nat) : Option Reg :=
  if index < 32 then some ⟨BitVec.ofNat 5 index⟩ else none

/-- The register that the low five bits of a word select. -/
def ofField (field : Word) : Reg :=
  ⟨field.setWidth 5⟩

/-- The register is the one that always reads zero. -/
def isZero (reg : Reg) : Bool :=
  reg = zero

/-- The names of the registers, in the order of their numbers. -/
def names : List Text :=
  ["zero", "at", "v0", "v1", "a0", "a1", "a2", "a3",
    "t0", "t1", "t2", "t3", "t4", "t5", "t6", "t7",
    "s0", "s1", "s2", "s3", "s4", "s5", "s6", "s7",
    "t8", "t9", "k0", "k1", "gp", "sp", "fp", "ra"].map Text.ofString

/-- Names a register may be written with that are not the ones it is printed with. -/
def aliases : List (Text × Reg) :=
  [(Text.ofString "s8", ⟨30⟩)]

/-- Every register, in the order of their numbers. -/
def all : List Reg :=
  (List.range 32).map fun index => ⟨BitVec.ofNat 5 index⟩

/-- The register's name. -/
def name (reg : Reg) : Text :=
  names.getD reg.index []

/-- The register as source text: a dollar sign and its name. -/
def text (reg : Reg) : Text :=
  '$' :: reg.name

/-- The register with a name in lower case. -/
def ofName? (name : Text) : Option Reg :=
  match names.findIdx? (· = name) with
  | some index => ofIndex? index
  | none => aliases.lookup name

/--
The register that source text names.

One leading `$` is dropped. Digits are the register's number, with any zeros in
front; other names are compared without regard to case.
-/
def lookup? (text : Text) : Option Reg :=
  let name := Text.dropMark '$' text
  if Numeral.isDecimal name then
    ofIndex? (Numeral.value 10 name)
  else
    ofName? (Text.lowercase name)

end Reg

end TinyMips
