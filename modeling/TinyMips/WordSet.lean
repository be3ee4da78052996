import TinyMips.Word

namespace TinyMips

/-!
# Sets of words

A set of words is a tree that branches on one bit of the word a level, the least
significant bit first. Asking and inserting take one step for each bit, however
many words there are.
-/

/-- The bits of a word, the least significant one first. -/
def Word.bits (word : Word) : List Bool :=
  (List.range 32).map word.getLsbD

/-- A word is known by its bits. -/
theorem Word.eq_of_bits_eq
    {first second : Word}
    (same : first.bits = second.bits) :
    first = second := by
  apply BitVec.eq_of_getLsbD_eq
  intro index bound
  exact List.map_inj_left.mp same index (List.mem_range.mpr bound)

/-- A set of lists of bits, as the tree of their beginnings. -/
inductive BitTree where
  /-- No list. -/
  | empty
  /-- The empty list, if it is there, and what follows a zero and a one. -/
  | node (here : Bool) (zeros ones : BitTree)
  deriving DecidableEq, Repr

namespace BitTree

/-- A list of bits is in the set. -/
def contains : BitTree → List Bool → Bool
  | empty, _ => false
  | node here _ _, [] => here
  | node _ zeros ones, bit :: bits =>
      if bit then ones.contains bits else zeros.contains bits

/-- The set with one more list of bits. -/
def insert : BitTree → List Bool → BitTree
  | empty, [] => node true empty empty
  | empty, bit :: bits =>
      if bit then
        node false empty (empty.insert bits)
      else
        node false (empty.insert bits) empty
  | node _ zeros ones, [] => node true zeros ones
  | node here zeros ones, bit :: bits =>
      if bit then
        node here zeros (ones.insert bits)
      else
        node here (zeros.insert bits) ones

/-- What is in the set after an insertion. -/
theorem contains_insert
    (tree : BitTree)
    (inserted bits : List Bool) :
    (tree.insert inserted).contains bits = (bits = inserted || tree.contains bits) := by
  induction inserted generalizing tree bits with
  | nil =>
      cases tree <;> cases bits <;> simp [insert, contains]
  | cons bit inserted inductionHypothesis =>
      cases tree <;> cases bits <;> cases bit <;>
        simp [insert, contains, inductionHypothesis]
      all_goals split <;> simp_all

end BitTree

/-- A set of words. -/
structure WordSet where
  tree : BitTree
  deriving DecidableEq, Repr

namespace WordSet

/-- The set without words. -/
def empty : WordSet := ⟨.empty⟩

/-- A word is in the set. -/
def contains (set : WordSet) (word : Word) : Bool :=
  set.tree.contains word.bits

/-- The set with one more word. -/
def insert (set : WordSet) (word : Word) : WordSet :=
  ⟨set.tree.insert word.bits⟩

/-- No word is in the empty set. -/
@[simp] theorem contains_empty (word : Word) :
    empty.contains word = false := by
  simp [contains, empty, BitTree.contains]

/-- After an insertion the inserted word is in the set, and what was there before. -/
@[simp] theorem contains_insert
    (set : WordSet)
    (inserted word : Word) :
    (set.insert inserted).contains word = (word = inserted || set.contains word) := by
  have bitsEq : word.bits = inserted.bits ↔ word = inserted :=
    ⟨Word.eq_of_bits_eq, congrArg Word.bits⟩
  simp only [contains, insert, BitTree.contains_insert, bitsEq]

end WordSet

end TinyMips
