import Mathlib.Data.List.Infix
import QueryOutline.Display.Layout
import QueryOutline.Proofs.Outline.Located

/-!
Building the tree layout by its branches. A tree grows at its end only, so that the branches
which can still take something are the nodes above the last one: their paths are the
beginnings of its path. A row cuts the branches back to its depth and hangs on the last
one that is left, of which there always is one, and this gives the tree of the layout.
-/

namespace QueryOutline

namespace Path

/-- The path of the same node with another tree in front. -/
def past : Path → Path
  | [] => []
  | i :: path => (i + 1) :: path

/-- Where a value for a depth goes when the last one stands at the given path. -/
def next (last : Path) (depth : Nat) : Path :=
  last.take depth ++ [match last[depth]? with | some i => i + 1 | none => 0]

theorem moved_past (path above : Path) (index : Nat) :
    path.past.moved above index = path.moved above (index + 1) := by
  cases path with
  | nil => rfl
  | cons i path => exact moved_rest i path above index

@[simp] theorem next_nil (depth : Nat) : next [] depth = [0] := by simp [next]

@[simp] theorem next_cons_zero (i : Nat) (path : Path) : next (i :: path) 0 = [i + 1] := rfl

@[simp] theorem next_cons_succ (i : Nat) (path : Path) (depth : Nat) :
    next (i :: path) (depth + 1) = i :: next path depth := by simp [next]

theorem next_past {path : Path} (h : path ≠ []) (depth : Nat) :
    path.past.next depth = (path.next depth).past := by
  obtain ⟨i, path, rfl⟩ := List.exists_cons_of_ne_nil h
  cases depth with
  | zero => rfl
  | succ depth => simp only [past, next_cons_succ]

end Path

namespace Forest

variable {α : Type}

def lastPath : Forest α → Path
  | nil => []
  | cons _ below nil => 0 :: below.lastPath
  | cons _ _ rest => rest.lastPath.past

/-- Hang a value on the node at a path, behind all that hangs there already, and say where
it stands then. The empty path is for the label above the roots. -/
def hang? (a : α) : Path → Forest α → Option (Path × Forest α)
  | [], nil => some ([0], cons a nil nil)
  | [], cons root below rest =>
      (rest.hang? a []).map fun (path, rest) => (path.past, cons root below rest)
  | _ :: _, nil => none
  | 0 :: path, cons root below rest =>
      (below.hang? a path).map fun (path, below) => (0 :: path, cons root below rest)
  | (i + 1) :: path, cons root below rest =>
      (rest.hang? a (i :: path)).map fun (path, rest) => (path.past, cons root below rest)

theorem lastPath_cons_of_ne_nil {rest : Forest α} (h : rest ≠ nil) (a : α) (below : Forest α) :
    (cons a below rest).lastPath = rest.lastPath.past := by
  cases rest with
  | nil => contradiction
  | cons b lower others => rfl

theorem lastPath_ne_nil {f : Forest α} (h : f ≠ nil) : f.lastPath ≠ [] := by
  induction f with
  | nil => contradiction
  | cons a below rest _ ih =>
      by_cases hrest : rest = nil
      · simp [hrest, lastPath]
      · obtain ⟨i, path, hpath⟩ := List.exists_cons_of_ne_nil (ih hrest)
        simp [lastPath_cons_of_ne_nil hrest, hpath, Path.past]

theorem next_lastPath_cons {rest : Forest α} (h : rest ≠ nil) (a : α) (below : Forest α)
    (depth : Nat) :
    (cons a below rest).lastPath.next depth = (rest.lastPath.next depth).past := by
  rw [lastPath_cons_of_ne_nil h, Path.next_past (lastPath_ne_nil h)]

theorem addLast_ne_nil (f : Forest α) (depth : Nat) (a : α) : f.addLast depth a ≠ nil := by
  fun_cases addLast depth a f <;> simp

/-- The value that has been added last stands last in the forest. -/
theorem lastPath_addLast (f : Forest α) (depth : Nat) (a : α) :
    (f.addLast depth a).lastPath = f.lastPath.next depth := by
  fun_induction addLast depth a f with
  | case1 depth => simp [lastPath]
  | case2 root below => rfl
  | case3 root below depth ih => simp [lastPath, ih]
  | case4 depth root below rest hrest ih =>
      rw [lastPath_cons_of_ne_nil (rest.addLast_ne_nil depth a), ih,
        next_lastPath_cons hrest]

/-- A value that is added stands behind all others, and at the next path. -/
theorem located_addLast (f : Forest α) (depth : Nat) (a : α) (above : Path) (index : Nat) :
    (f.addLast depth a).located above index =
      f.located above index ++ [((f.lastPath.next depth).moved above index, a)] := by
  fun_induction addLast depth a f generalizing above index with
  | case1 depth => simp [located, lastPath]
  | case2 root below => simp [located, lastPath, Path.moved]
  | case3 root below depth ih => simp [located, lastPath, Path.moved_below, ih]
  | case4 depth root below rest hrest ih =>
      simp [located, next_lastPath_cons hrest, Path.moved_past, ih]

/-- The branch for a depth is the beginning of the last path, as far as it goes. -/
theorem hang?_take_lastPath (f : Forest α) (depth : Nat) (a : α) :
    f.hang? a (f.lastPath.take depth) = some (f.lastPath.next depth, f.addLast depth a) := by
  fun_induction addLast depth a f with
  | case1 depth => simp [lastPath, hang?]
  | case2 root below => rfl
  | case3 root below depth ih => simp [lastPath, hang?, ih]
  | case4 depth root below rest hrest ih =>
      obtain ⟨i, path, hpath⟩ := List.exists_cons_of_ne_nil (lastPath_ne_nil hrest)
      rw [next_lastPath_cons hrest, lastPath_cons_of_ne_nil hrest]
      rw [hpath] at ih ⊢
      cases depth with
      | zero =>
          rw [List.take_zero] at ih ⊢
          rw [hang?, ih]
          rfl
      | succ depth =>
          rw [List.take_succ_cons] at ih
          rw [Path.past, List.take_succ_cons, hang?, ih]
          rfl

end Forest

/-- A tree that is being built, with the branches that can take something. -/
structure Growth (α : Type) where
  forest : Forest α := .nil
  branches : List Path := [[]]

namespace Growth

variable {α : Type}

/-- Cut the branches back to a depth, hang a value on the last one that is left, and make
it a branch. -/
def add? (g : Growth α) (depth : Nat) (a : α) : Option (Growth α) := do
  let kept := g.branches.take (depth + 1)
  let branch ← kept.getLast?
  let (path, forest) ← g.forest.hang? a branch
  return { forest, branches := kept ++ [path] }

def ofForest (f : Forest α) : Growth α :=
  { forest := f, branches := f.lastPath.inits }

theorem getLast?_inits (path : Path) : path.inits.getLast? = some path := by
  induction path with
  | nil => rfl
  | cons i path ih => simp [List.getLast?_cons, ih]

/-- The branches above a new one stay, and those deeper are cut off. -/
theorem inits_next (path : Path) (depth : Nat) :
    (path.next depth).inits = (path.take depth).inits ++ [path.next depth] := by
  simp [Path.next, List.inits_append]

/-- The branch that is cut back to is the one that values of the depth are added below. -/
theorem add?_ofForest (f : Forest α) (depth : Nat) (a : α) :
    (ofForest f).add? depth a = some (ofForest (f.addLast depth a)) := by
  simp only [add?, ofForest, ← List.take_inits, getLast?_inits, Option.bind_eq_bind,
    Option.bind_some, Forest.hang?_take_lastPath, Forest.lastPath_addLast, inits_next]
  rfl

end Growth

namespace Layout

/-- The tree of rows under a label, built by its branches. -/
def grow? (s : Settings) (label : String) (rows : List Row) : Option (Tree StyledText) := do
  let g ← rows.foldlM (fun (g : Growth StyledText) r => g.add? r.depth (rowText s false r)) {}
  return { root := [{ text := label, style := labelStyle }], below := g.forest }

theorem foldlM_add? (s : Settings) (rows : List Row) (f : Forest StyledText) :
    rows.foldlM (fun g r => g.add? r.depth (rowText s false r)) (Growth.ofForest f) =
      some (Growth.ofForest (rows.foldl (fun f r => f.addLast r.depth (rowText s false r)) f)) := by
  induction rows generalizing f with
  | nil => rfl
  | cons r rows ih =>
      rw [List.foldlM_cons, Growth.add?_ofForest]
      exact ih _

/-- Growing never fails, not even for rows with depths that no outline has. -/
theorem grow?_eq_tree (s : Settings) (label : String) (rows : List Row) :
    grow? s label rows =
      some { root := [{ text := label, style := labelStyle }], below := tree s rows } := by
  have hstart : ({} : Growth StyledText) = Growth.ofForest .nil := rfl
  rw [grow?, hstart, foldlM_add?]
  rfl

end Layout

end QueryOutline
