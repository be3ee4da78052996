import Mathlib.Data.List.Basic
import TinyMips.Proofs.Traversal
import TinyMips.Source.Item

namespace TinyMips.Item

/-!
# Items of lines that all follow the grammar

When every line says something, the items of a text are those of its lines, each
with the number of its line.
-/

/-- The items of what lines say, the first of them with the given number. -/
def ofContents (start : Nat) (contents : List Content) : List Item :=
  (contents.zipIdx start).flatMap fun (content, number) => ofContent number content

/-- A line has at most one statement, under the number of the line. -/
theorem statements_ofContent
    (number : Nat)
    (content : Content) :
    statements (ofContent number content) = (content.statement?.map (number, ·)).toList := by
  obtain ⟨names, statement?⟩ := content
  induction names with
  | nil => cases statement? <;> rfl
  | cons name names inductionHypothesis => exact inductionHypothesis

/-- The statements of lines are those of each line, with its number. -/
theorem statements_ofContents
    (start : Nat)
    (contents : List Content) :
    statements (ofContents start contents) =
      (contents.zipIdx start).filterMap fun (content, number) =>
        content.statement?.map (number, ·) := by
  have eachLine (numbered : Content × Nat) :
      statements (ofContent numbered.2 numbered.1) =
        (numbered.1.statement?.map (numbered.2, ·)).toList :=
    statements_ofContent numbered.2 numbered.1
  rw [ofContents, statements, List.filterMap_flatMap, List.filterMap_eq_flatMap_toList]
  exact List.flatMap_congr fun numbered _ => eachLine numbered

/-- A statement is what the line with its number says. -/
theorem getElem?_of_mem_statements_ofContents
    {start number : Nat}
    {contents : List Content}
    {statement : Statement}
    (member : (number, statement) ∈ statements (ofContents start contents)) :
    start ≤ number ∧ ∃ names, contents[number - start]? = some ⟨names, some statement⟩ := by
  rw [statements_ofContents] at member
  obtain ⟨⟨⟨names, statement?⟩, line⟩, numbered, stated⟩ := List.mem_filterMap.mp member
  simp only [Option.map_eq_some_iff, Prod.mk.injEq] at stated
  obtain ⟨_, rfl, rfl, rfl⟩ := stated
  obtain ⟨least, found⟩ := List.mk_mem_zipIdx_iff_le_and_getElem?_sub.mp numbered
  exact ⟨least, names, found⟩

/-- Each line has one statement at most, so the numbers of statements increase. -/
theorem pairwise_statements_ofContents
    (start : Nat)
    (contents : List Content) :
    (statements (ofContents start contents)).Pairwise fun first second => first.1 < second.1 := by
  rw [statements_ofContents, List.pairwise_filterMap]
  refine (pairwise_zipIdx contents start).imp fun less first isFirst second isSecond => ?_
  obtain ⟨_, _, rfl⟩ := Option.map_eq_some_iff.mp isFirst
  obtain ⟨_, _, rfl⟩ := Option.map_eq_some_iff.mp isSecond
  exact less

/-- Lines that can be read one by one give the items of their contents. -/
theorem ofLines_of_contents
    {lines : List Line}
    {contents : List Content}
    (reads : lines.map (fun line => Content.ofLine? line.text) = contents.map some)
    (start : Nat) :
    ofLines (lines.zipIdx start) = ofContents start contents := by
  induction lines generalizing contents start with
  | nil =>
      obtain rfl : contents = [] := by simpa using reads.symm
      rfl
  | cons line lines inductionHypothesis =>
      cases contents with
      | nil =>
          simp at reads
      | cons content contents =>
          obtain ⟨first, rest⟩ := List.cons.inj reads
          have later := inductionHypothesis rest (start + 1)
          rw [ofLines, ofContents] at later
          rw [ofLines, ofContents, List.zipIdx_cons, List.zipIdx_cons, List.flatMap_cons,
            List.flatMap_cons, later]
          simp only [first]

/-- A text whose lines all say something has the items of these lines. -/
theorem ofText_of_contents
    {source : Text}
    {contents : List Content}
    (reads :
      (Line.split source).map (fun line => Content.ofLine? line.text) = contents.map some) :
    ofText source = .ok (ofContents 1 contents) := by
  have noneRejected :
      (Line.split source).findIdx? (fun line => (Content.ofLine? line.text).isNone) = none := by
    rw [List.findIdx?_eq_none_iff]
    intro line member
    have read : Content.ofLine? line.text ∈ contents.map some := by
      rw [← reads]
      exact List.mem_map_of_mem member
    obtain ⟨content, _, found⟩ := List.mem_map.mp read
    simp [← found]
  rw [ofText, ofLines_of_contents reads 1]
  split
  · rename_i index found
    simp [noneRejected] at found
  · rfl

/-- The lines of a text that is not rejected all say something. -/
theorem contents_of_ofText
    {source : Text}
    {items : List Item}
    (accepted : ofText source = .ok items) :
    ∃ contents : List Content,
      (Line.split source).map (fun line => Content.ofLine? line.text) = contents.map some := by
  simp only [ofText] at accepted
  split at accepted
  · simp at accepted
  · rename_i noneRejected
    refine ⟨(Line.split source).map fun line => (Content.ofLine? line.text).getD ⟨[], none⟩, ?_⟩
    rw [List.map_map]
    apply List.map_congr_left
    intro line member
    have read := List.findIdx?_eq_none_iff.mp noneRejected line member
    obtain ⟨content, found⟩ := Option.isSome_iff_exists.mp (by simpa using read)
    simp [found]

/-- A text is read exactly if its lines all say something, and then has the items of these lines. -/
theorem ofText_eq_ok_iff
    {source : Text}
    {items : List Item} :
    ofText source = .ok items ↔
      ∃ contents,
        (Line.split source).map (fun line => Content.ofLine? line.text) = contents.map some ∧
          items = ofContents 1 contents := by
  constructor
  · intro accepted
    obtain ⟨contents, reads⟩ := contents_of_ofText accepted
    exact ⟨contents, reads, Except.ok.inj (accepted.symm.trans (ofText_of_contents reads))⟩
  · rintro ⟨contents, reads, rfl⟩
    exact ofText_of_contents reads

end TinyMips.Item
