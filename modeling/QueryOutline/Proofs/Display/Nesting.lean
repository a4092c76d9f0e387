import QueryOutline.Proofs.Display.LineOrder

/-!
Nesting of the brace layout. Whatever depths the rows have, each open row is closed by a
brace of its own, and what stands between the two is nested in the same way. For the rows
of a document these blocks are the nodes that are shown with all that is shown below them,
and a brace stands in the column where the header it closes begins.
-/

namespace QueryOutline

namespace Layout

namespace Line

def row? : Line → Option Row
  | row r => some r
  | closing _ => none

/-- Lines in which every open row is closed by a line for its own depth, behind lines that
are nested themselves. Nothing else is closed. -/
inductive Nested : List Line → Prop
  | nil : Nested []
  | plain {r : Row} {ls : List Line} (shut : (r.hasChildren && r.isOpen) = false)
      (rest : Nested ls) : Nested (row r :: ls)
  | block {r : Row} {inside ls : List Line} (opens : (r.hasChildren && r.isOpen) = true)
      (within : Nested inside) (rest : Nested ls) :
      Nested (row r :: (inside ++ closing r.depth :: ls))

end Line

open Line

/-! What the open rows demand of the lines that follow. -/

/-- The lines close rows of the given depths, the innermost first, and apart from that they
are nested. -/
def Closes : List Nat → List Line → Prop
  | [], ls => Nested ls
  | d :: ds, ls => ∃ inside rest, ls = inside ++ closing d :: rest ∧ Nested inside ∧ Closes ds rest

variable {depths outer : List Nat} {d : Nat} {r : Row} {ls : List Line}

theorem Closes.closing (h : Closes depths ls) : Closes (d :: depths) (closing d :: ls) :=
  ⟨[], ls, rfl, .nil, h⟩

theorem Closes.closings (h : Closes outer ls) (inner : List Nat) :
    Closes (inner ++ outer) (inner.map .closing ++ ls) := by
  induction inner with
  | nil => exact h
  | cons d inner ih => exact ih.closing

theorem Closes.plain (hr : (r.hasChildren && r.isOpen) = false) (h : Closes depths ls) :
    Closes depths (row r :: ls) := by
  cases depths with
  | nil => exact .plain hr h
  | cons d depths =>
      obtain ⟨inside, rest, rfl, hinside, hrest⟩ := h
      exact ⟨row r :: inside, rest, rfl, .plain hr hinside, hrest⟩

/-- An open row in front takes the innermost depth off the demand. -/
theorem Closes.block (hr : (r.hasChildren && r.isOpen) = true)
    (h : Closes (r.depth :: depths) ls) : Closes depths (row r :: ls) := by
  obtain ⟨inside, rest, rfl, hinside, hrest⟩ := h
  cases depths with
  | nil => exact .block hr hinside hrest
  | cons d depths =>
      obtain ⟨others, behind, rfl, hothers, hbehind⟩ := hrest
      refine ⟨row r :: (inside ++ .closing r.depth :: others), behind, ?_, ?_, hbehind⟩
      · simp only [List.cons_append, List.append_assoc]
      · exact .block hr hinside hothers

/-- The lines from a row on close all that is open, and all that they open themselves. -/
theorem closes_orderFrom (depths : List Nat) (rows : List Row) :
    Closes depths (orderFrom depths rows) := by
  induction rows generalizing depths with
  | nil =>
      have hnil : Closes [] [] := Nested.nil
      simpa [orderFrom] using hnil.closings depths
  | cons r rows ih =>
      let isInner := fun depth => decide (r.depth ≤ depth)
      have hrow : Closes (depths.dropWhile isInner) (row r ::
          orderFrom (if r.hasChildren && r.isOpen then r.depth :: depths.dropWhile isInner
            else depths.dropWhile isInner) rows) := by
        cases hr : r.hasChildren && r.isOpen with
        | false => exact (ih _).plain hr
        | true => exact (ih _).block hr
      have hall := hrow.closings (depths.takeWhile isInner)
      rwa [List.takeWhile_append_dropWhile] at hall

theorem nested_order (rows : List Row) : Nested (order rows) :=
  closes_orderFrom [] rows

/-- No row is left out, and none changes its place. -/
theorem filterMap_row?_orderFrom (depths : List Nat) (rows : List Row) :
    (orderFrom depths rows).filterMap row? = rows := by
  have hclosing (depths : List Nat) : (depths.map Line.closing).filterMap row? = [] := by
    induction depths with
    | nil => rfl
    | cons d depths ih => exact ih
  induction rows generalizing depths with
  | nil => exact hclosing depths
  | cons r rows ih =>
      rw [orderFrom, List.filterMap_append, hclosing, List.nil_append,
        List.filterMap_cons_some (f := row?) (b := r) rfl, ih]

/-! Columns. -/

theorem visible_blanks (n : Int) :
    Piece.visible { text := blanks n } = List.replicate n.toNat ' ' := by
  have hblank : Piece.isDropped ' ' = false := by decide
  simp [Piece.visible, blanks, hblank]

/-- The header of a row begins behind the margin and the marker. -/
theorem length_plain_leader (s : Settings) (r : Row) :
    (StyledText.plain (leader s true r)).length = (margin s r.depth).toNat + 2 := by
  have hopen : (Piece.visible { text := openMarker, style := markerStyle }).length = 2 := by decide
  have hclosed : (Piece.visible { text := closedMarker, style := markerStyle }).length = 2 := by
    decide
  have hleaf : (Piece.visible { text := leafMarker }).length = 2 := by decide
  rw [StyledText.plain, String.length_ofList, leader]
  cases r.hasChildren with
  | false => simp [visible_blanks, hleaf]
  | true =>
      cases r.isOpen with
      | false => simp [visible_blanks, hclosed]
      | true => simp [visible_blanks, hopen]

/-- The brace stands in the column where the header begins. -/
theorem toList_plain_closingLine {s : Settings} (hs : 0 ≤ s.indentWidth) (depth : Nat) :
    (StyledText.plain (closingLine s depth)).toList =
      List.replicate ((margin s depth).toNat + 2) ' ' ++ ['}'] := by
  have hmargin : 0 ≤ margin s depth := Int.mul_nonneg (Int.natCast_nonneg depth) hs
  have hpad : (margin s depth + leafMarker.length).toNat = (margin s depth).toNat + 2 := by
    change (margin s depth + 2).toNat = _
    omega
  have hbrace (style : String) : Piece.visible { text := "\x7d", style } = ['}'] := by
    simp [Piece.visible, show Piece.isDropped '}' = false by decide]
  simp [StyledText.plain, closingLine, visible_blanks, hpad, hbrace]

end Layout

/-! Blocks. -/

/-- The lines of nodes that have their rows at their paths: the row of each node, and if it
is open, the lines of the nodes below it and a closing brace. -/
def Forest.blockLines {α : Type} (s : Settings) (rowAt : Path → Row) (above : Path) (index : Nat) :
    Forest α → List StyledText
  | nil => []
  | cons _ below rest =>
      let r := rowAt (above ++ [index])
      Layout.rowText s true r ::
        ((if r.isOpen then
            below.blockLines s rowAt (above ++ [index]) 0 ++ [Layout.closingLine s r.depth]
          else []) ++ rest.blockLines s rowAt above (index + 1))

namespace Row

open Layout

/-- The row with a path, or another one if there is none. -/
def withPath (rows : List Row) (other : Row) (path : Path) : Row :=
  (rows.find? (·.path == path)).getD other

theorem withPath_path {rows : List Row} {r : Row} (other : Row)
    (h : (rows.map (·.path)).Nodup) (hr : r ∈ rows) : withPath rows other r.path = r := by
  have hfind : rows.find? (·.path == r.path) = some r := by
    induction rows with
    | nil => cases hr
    | cons first rows ih =>
        rw [List.map_cons, List.nodup_cons] at h
        rcases List.mem_cons.mp hr with rfl | hr
        · exact List.find?_cons_of_pos BEq.rfl
        · have hne : first.path ≠ r.path := by
            intro heq
            exact h.1 (heq ▸ List.mem_map_of_mem hr)
          rw [List.find?_cons_of_neg (by simpa using hne)]
          exact ih h.2 hr
  rw [withPath, hfind, Option.getD_some]

variable {openAt : Path → Bool} {term : String} {above : Path} {index : Nat}

theorem blockLines_eq_map (s : Settings) {rowAt : Path → Row} (p : Head → Bool) {f : Forest Head}
    (h : ∀ r ∈ emit openAt term above index (f.markUp p), rowAt r.path = r) :
    f.blockLines s rowAt above index =
      (blocks openAt term above index (f.markUp p)).map (Line.styled s) := by
  induction f generalizing above index with
  | nil => rfl
  | cons a below rest ihb ihr =>
      rw [Forest.markUp, emit_cons] at h
      rw [Forest.markUp, blocks, Forest.blockLines]
      let r := ofTree openAt term (above ++ [index])
        ⟨(a, p a || (below.markUp p).anyRoot (·.2)), below.markUp p⟩
      have hat : rowAt (above ++ [index]) = r := h r List.mem_cons_self
      have hdepth : r.depth = above.length := by simp [r, ofTree]
      have hrest : rest.blockLines s rowAt above (index + 1) =
          (blocks openAt term above (index + 1) (rest.markUp p)).map (Line.styled s) := by
        apply ihr
        intro q hq
        exact h q (List.mem_cons_of_mem r (List.mem_append_right _ hq))
      rw [hat, hrest, hdepth, List.map_cons, List.map_append]
      congr 2
      change (if r.isOpen then _ else []) = (if r.isOpen then _ else []).map _
      cases hopen : r.isOpen with
      | false => rfl
      | true =>
          have hbelow : below.blockLines s rowAt (above ++ [index]) 0 =
              (blocks openAt term (above ++ [index]) 0 (below.markUp p)).map (Line.styled s) := by
            apply ihb
            intro q hq
            apply h q
            apply List.mem_cons_of_mem
            apply List.mem_append_left
            rwa [if_pos hopen]
          simp only [if_true]
          rw [hbelow, List.map_append]
          rfl

theorem blockLines_ofForest (s : Settings) {f : Forest Head} {t : Toolbar} {o : Overrides}
    {term : Option String} {rowAt : Path → Row}
    (h : ∀ r ∈ ofForest f t o term, rowAt r.path = r) :
    f.blockLines s rowAt [] 0 = lines s (ofForest f t o term) := by
  rw [lines_eq_map, order_ofForest]
  exact blockLines_eq_map s _ h

end Row

namespace Layout

/-- The brace layout of a document shows its nodes as nested blocks. Any other rows are
shown in their order, with a brace for each open one, and the braces nest. A brace stands
in the column where the header of its row begins. -/
theorem lines_nested (s : Settings) :
    (∀ (f : Forest Head) (t : Toolbar) (o : Overrides) (term : Option String) (other : Row),
      let rows := Row.ofForest f t o term
      lines s rows = f.blockLines s (Row.withPath rows other) [] 0) ∧
      (∀ rows : List Row, ∃ ls, lines s rows = ls.map (Line.styled s) ∧
        ls.filterMap Line.row? = rows ∧ Line.Nested ls) ∧
      ∀ r : Row, 0 ≤ s.indentWidth → ∃ column : Nat,
        (column : Int) = r.depth * s.indentWidth + 2 ∧
        rowText s true r = leader s true r ++ r.segments.map (segmentPiece s) ∧
        (StyledText.plain (leader s true r)).length = column ∧
        (StyledText.plain (closingLine s r.depth)).toList =
          List.replicate column ' ' ++ ['}'] := by
  refine ⟨?_, ?_, ?_⟩
  · intro f t o term other rows
    apply Eq.symm
    apply Row.blockLines_ofForest
    intro r hr
    exact Row.withPath_path other (Row.nodup_path_ofForest f t o term) hr
  · intro rows
    exact ⟨order rows, lines_eq_map s rows, filterMap_row?_orderFrom [] rows, nested_order rows⟩
  · intro r hs
    have hmargin : 0 ≤ margin s r.depth := Int.mul_nonneg (Int.natCast_nonneg r.depth) hs
    refine ⟨(margin s r.depth).toNat + 2, ?_, rfl, length_plain_leader s r,
      toList_plain_closingLine hs r.depth⟩
    rw [Int.natCast_add, Int.toNat_of_nonneg hmargin]
    rfl

theorem lines_nested_twoLevels :
    let s := Settings.ofDefaults {}
    let r : Row := { depth := 2, segments := [], hasChildren := true, isOpen := true }
    ∃ column : Nat, (column : Int) = 2 * s.indentWidth + 2 ∧
      (StyledText.plain (leader s true r)).length = column ∧
      (StyledText.plain (closingLine s 2)).toList = List.replicate column ' ' ++ ['}'] := by
  intro s r
  obtain ⟨-, -, hbrace⟩ := lines_nested s
  obtain ⟨column, hcolumn, -, hleader, hclosing⟩ := hbrace r (by decide)
  exact ⟨column, hcolumn, hleader, hclosing⟩

end Layout

end QueryOutline
