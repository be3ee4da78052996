import TinyMips.Text.Numeral

namespace TinyMips

/-!
# Machine words

Registers, memory cells, addresses and instructions are 32-bit words; immediate
fields are 16-bit halves. Addresses count bytes, and a word is four of them.
-/

/-- A 32-bit word. -/
abbrev Word := BitVec 32

/-- A 16-bit immediate field. -/
abbrev Half := BitVec 16

/-- A 16-bit field as the word that has the same signed value. -/
def Half.signExtended (half : Half) : Word :=
  half.signExtend 32

namespace Word

/-- Eight hexadecimal digits. -/
def hex8 (word : Word) : Text :=
  Numeral.hex 8 word.toNat

/-- `0x` and eight hexadecimal digits. -/
def address (word : Word) : Text :=
  Numeral.prefixedHex 8 word.toNat

/-- `0x` and as few hexadecimal digits as the value needs. -/
def shortHex (word : Word) : Text :=
  Numeral.prefixedHex 1 word.toNat

/-- The byte address of the word with the given index, as far as a word can hold it. -/
def ofIndex (index : Nat) : Word :=
  BitVec.ofNat 32 (4 * index)

/-- A word can hold the addresses of the first `2 ^ 30` words. -/
theorem toNat_ofIndex
    {index : Nat}
    (near : index < 0x40000000) :
    (ofIndex index).toNat = 4 * index := by
  rw [ofIndex, BitVec.toNat_ofNat]
  exact Nat.mod_eq_of_lt (by omega)

/-- The word is the address of a whole word. -/
def isAligned (address : Word) : Bool :=
  address.toNat % 4 = 0

/-- The index of the word that an address points into. -/
def index (address : Word) : Nat :=
  address.toNat / 4

end Word

end TinyMips
