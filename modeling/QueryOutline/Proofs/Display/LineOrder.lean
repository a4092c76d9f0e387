import QueryOutline.Display.Layout
import QueryOutline.Proofs.Outline.Visible

/-!
The lines of the brace layout. Apart from its style, a line shows a row or closes one. The
open rows are held on a stack, and for the rows of a document the stack gives the same as
nested blocks: behind the lines of what stands below an open row comes its closing brace.
-/

namespace QueryOutline

namespace Layout

/-- What a line shows. -/
inductive Line where
  | row (r : Row)
  | closing (depth : Nat)
  deriving DecidableEq, Repr

namespace Line

/-- The text of a line without margin and marker. -/
def text : Line → String
  | row r => r.text
  | closing _ => "\x7d"

def styled (s : Settings) : Line → StyledText
  | row r => rowText s true r
  | closing depth => closingLine s depth

end Line

/-- What the lines from a row on show, given the depths of the rows that are open. -/
def orderFrom (openDepths : List Nat) : List Row → List Line
  | [] => openDepths.map .closing
  | r :: rs =>
      let isInner := fun depth => decide (r.depth ≤ depth)
      let outer := openDepths.dropWhile isInner
      (openDepths.takeWhile isInner).map .closing ++
        .row r :: orderFrom (if r.hasChildren && r.isOpen then r.depth :: outer else outer) rs

def order (rows : List Row) : List Line :=
  orderFrom [] rows

theorem linesFrom_eq_map (s : Settings) (openDepths : List Nat) (rows : List Row) :
    linesFrom s openDepths rows = (orderFrom openDepths rows).map (Line.styled s) := by
  have hclosing (depths : List Nat) :
      depths.map (closingLine s) = (depths.map .closing).map (Line.styled s) := by
    rw [List.map_map]
    rfl
  induction rows generalizing openDepths with
  | nil => exact hclosing openDepths
  | cons r rs ih =>
      simp only [linesFrom, orderFrom, List.map_append, List.map_cons, ih, hclosing]
      rfl

theorem lines_eq_map (s : Settings) (rows : List Row) :
    lines s rows = (order rows).map (Line.styled s) :=
  linesFrom_eq_map s [] rows

/-! The stack of open rows. -/

variable {openDepths : List Nat} {d : Nat} {r : Row} {rows : List Row}

/-- A row closes nothing that is open further out. -/
theorem orderFrom_cons (h : ∀ depth ∈ openDepths, depth < r.depth) :
    orderFrom openDepths (r :: rows) =
      .row r :: orderFrom (if r.hasChildren && r.isOpen then r.depth :: openDepths
        else openDepths) rows := by
  cases openDepths with
  | nil => rfl
  | cons depth depths =>
      have hd : ¬ r.depth ≤ depth := Nat.not_le.mpr (h depth List.mem_cons_self)
      simp [orderFrom, hd]

/-- What comes next, if anything does, closes the innermost open row. -/
theorem orderFrom_of_closes (h : ∀ r ∈ rows.head?, r.depth ≤ d) :
    orderFrom (d :: openDepths) rows = .closing d :: orderFrom openDepths rows := by
  cases rows with
  | nil => rfl
  | cons r rs =>
      have hd : r.depth ≤ d := h r rfl
      simp [orderFrom, hd]

end Layout

namespace Row

open Layout

variable {openAt : Path → Bool} {term : String} {above : Path} {index : Nat}

/-- The lines of a forest of marked nodes as nested blocks. -/
def blocks (openAt : Path → Bool) (term : String) (above : Path) (index : Nat) :
    Forest (Head × Bool) → List Line
  | .nil => []
  | .cons a below rest =>
      let r := ofTree openAt term (above ++ [index]) ⟨a, below⟩
      let inside := blocks openAt term (above ++ [index]) 0 below
      .row r :: ((if r.isOpen then inside ++ [.closing above.length] else []) ++
        blocks openAt term above (index + 1) rest)

theorem depth_le_of_mem_head?_emit (f : Forest (Head × Bool)) {rows : List Row} {d : Nat}
    (hd : above.length ≤ d) (hrows : ∀ r ∈ rows.head?, r.depth ≤ d) :
    ∀ r ∈ (emit openAt term above index f ++ rows).head?, r.depth ≤ d := by
  cases f with
  | nil => exact hrows
  | cons a below rest =>
      intro r hr
      obtain rfl := Option.some.inj hr
      exact hd

/-- The rows of a forest close all that they open, as soon as a row follows that is not
below them. -/
theorem orderFrom_emit_append (f : Forest (Head × Bool)) {openDepths : List Nat}
    {rows : List Row} (hopen : ∀ depth ∈ openDepths, depth < above.length)
    (hrows : ∀ r ∈ rows.head?, r.depth ≤ above.length) :
    orderFrom openDepths (emit openAt term above index f ++ rows) =
      blocks openAt term above index f ++ orderFrom openDepths rows := by
  induction f generalizing above index openDepths rows with
  | nil => rfl
  | cons a below rest ihb ihr =>
      let r := ofTree openAt term (above ++ [index]) ⟨a, below⟩
      have hl : (above ++ [index]).length = above.length + 1 := List.length_append
      have hd : r.depth = above.length := by simp [r, ofTree]
      have hr : (r.hasChildren && r.isOpen) = r.isOpen := by simp [r, ofTree]
      have hnext : ∀ r ∈ (emit openAt term above (index + 1) rest ++ rows).head?,
          r.depth ≤ above.length := depth_le_of_mem_head?_emit rest (Nat.le_refl _) hrows
      have hrest : orderFrom openDepths (emit openAt term above (index + 1) rest ++ rows) =
          blocks openAt term above (index + 1) rest ++ orderFrom openDepths rows :=
        ihr hopen hrows
      have hrow (rows : List Row) : orderFrom openDepths (r :: rows) =
          .row r :: orderFrom (if r.isOpen then above.length :: openDepths else openDepths) rows := by
        rw [orderFrom_cons (by rwa [hd]), hr, hd]
      rw [emit_cons, blocks, List.cons_append, List.append_assoc, hrow, List.cons_append,
        List.append_assoc, ← hrest]
      congr 1
      change orderFrom _ ((if r.isOpen then _ else []) ++ _) = (if r.isOpen then _ else []) ++ _
      cases r.isOpen with
      | false => rfl
      -- the row is on the stack while the rows below it are shown, and is closed behind them
      | true =>
          have hinside : ∀ depth ∈ above.length :: openDepths,
              depth < (above ++ [index]).length := by
            rw [List.forall_mem_cons, hl]
            exact ⟨Nat.lt_succ_self _, fun depth h => Nat.lt_succ_of_lt (hopen depth h)⟩
          have hdeeper : ∀ r ∈ (emit openAt term above (index + 1) rest ++ rows).head?,
              r.depth ≤ (above ++ [index]).length := by
            intro r h
            rw [hl]
            exact Nat.le_succ_of_le (hnext r h)
          simp only [if_true]
          rw [ihb hinside hdeeper, orderFrom_of_closes hnext, List.append_assoc]
          rfl

theorem order_ofForest (f : Forest Head) (t : Toolbar) (o : Overrides) (term : Option String) :
    order (ofForest f t o term) = blocks (o.isOpen t) (term.getD t.effectiveTerm) [] 0
      (f.markMatches (term.getD t.effectiveTerm)) := by
  have h : orderFrom [] (ofForest f t o term ++ []) = _ ++ orderFrom [] [] :=
    orderFrom_emit_append (f.markMatches (term.getD t.effectiveTerm)) (by simp) (by simp)
  rw [List.append_nil, orderFrom, List.map_nil, List.append_nil] at h
  exact h

end Row

end QueryOutline
