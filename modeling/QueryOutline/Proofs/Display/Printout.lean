import QueryOutline.Proofs.Display.LineOrder
import QueryOutline.Proofs.Outline.Painted

/-!
The brace layout as a text. With everything open, the lines of a document without their
margins and markers depend only on its nodes: on their attributes, and on whether there is
anything below them. A search only cuts the texts of the headers into pieces.
-/

namespace QueryOutline

open Segment

theorem Row.toList_text (r : Row) : r.text.toList = chars r.segments :=
  toList_join_text r.segments

namespace Layout

namespace Line

/-- A line without its margin and marker, and with its end. -/
def chars (l : Line) : List Char :=
  l.text.toList ++ ['\n']

theorem chars_row (r : Row) : (row r).chars = Segment.chars r.segments ++ ['\n'] := by
  rw [← r.toList_text]
  rfl

theorem chars_closing (depth : Nat) : (closing depth).chars = ['}', '\n'] := by
  simp [chars, text]

end Line

def printout (rows : List Row) : String :=
  String.ofList ((order rows).flatMap Line.chars)

end Layout

def Forest.printout (term : String) (isTop : Bool) : Forest Head → List Char
  | nil => []
  | cons h below rest =>
      let hasChildren := !below.isEmpty
      chars (h.header isTop hasChildren hasChildren term) ++ '\n' ::
        ((if hasChildren then below.printout term false ++ ['}', '\n'] else []) ++
          rest.printout term isTop)

namespace Layout

variable {openAt : Path → Bool} {term : String} {above : Path} {index : Nat}

/-- With every block open the lines of the outline are those of the printout. -/
theorem chars_blocks (hopen : ∀ path, openAt path = true) (p : Head → Bool) (f : Forest Head) :
    (Row.blocks openAt term above index (f.markUp p)).flatMap Line.chars =
      f.printout term above.isEmpty := by
  induction f generalizing above index with
  | nil => rfl
  | cons h below rest ihb ihr =>
      have habove : (above ++ [index]).isEmpty = false := by simp
      have hfirst : ((above ++ [index]).length == 1) = above.isEmpty := by cases above <;> simp
      have hchildren : Tree.hasChildren ⟨(h, p h || (below.markUp p).anyRoot (·.2)),
          below.markUp p⟩ = !below.isEmpty := by simp [Tree.hasChildren]
      simp only [Forest.markUp, Row.blocks, List.flatMap_cons, List.flatMap_append, Line.chars_row,
        Row.ofTree, hchildren, hopen, hfirst, Bool.or_true, Bool.and_true, ihr, Forest.printout]
      cases below.isEmpty with
      | true => simp
      | false => simp [ihb, habove, Line.chars_closing]

/-- At the start nothing is collapsed, so all of the forest is printed. -/
theorem toList_printout_ofForest (f : Forest Head) (term : Option String) :
    (printout (Row.ofForest f {} {} term)).toList = f.printout (term.getD "") true := by
  have hopen (path : Path) : Overrides.isOpen {} {} path = true := rfl
  rw [printout, Row.order_ofForest, String.toList_ofList]
  exact chars_blocks hopen _ f

end Layout

end QueryOutline
