import QueryOutline.Outline.Match

/-!
Nodes by their paths. Values that are listed with their paths are the ones that the
paths lead to, and marking a forest changes no path. Since lists are built with the
path above and a running index, every statement is about a path moved to the place
where its forest stands.
-/

namespace QueryOutline

namespace Path

/-- The path of a node, as its forest stands below a path and is numbered from an
index. -/
def moved (path above : Path) (index : Nat) : Path :=
  match path with
  | [] => above
  | i :: path => above ++ (index + i) :: path

@[simp] theorem moved_nil_zero (path : Path) : path.moved [] 0 = path := by
  cases path <;> simp [moved]

@[simp] theorem moved_first (above : Path) (index : Nat) :
    moved [0] above index = above ++ [index] := rfl

/-- Into the forest below the first root. -/
theorem moved_below (path above : Path) (index : Nat) :
    moved (0 :: path) above index = path.moved (above ++ [index]) 0 := by
  cases path <;> simp [moved]

/-- Past the first tree. -/
theorem moved_rest (i : Nat) (path above : Path) (index : Nat) :
    moved ((i + 1) :: path) above index = moved (i :: path) above (index + 1) := by
  have h : index + (i + 1) = index + 1 + i := by omega
  simp only [moved, h]

theorem below_moved {path : Path} (above : Path) (index : Nat) (h : path ≠ []) :
    above <+: path.moved above index ∧ path.moved above index ≠ above := by
  cases path with
  | nil => contradiction
  | cons i path => exact ⟨⟨(index + i) :: path, rfl⟩, by simp [moved]⟩

end Path

namespace Forest

variable {α β : Type}

@[simp] theorem at?_empty (f : Forest α) : f.at? [] = none := by
  cases f <;> rfl

theorem ne_nil_of_at?_eq_some {f : Forest α} {path : Path} {t : Tree α}
    (h : f.at? path = some t) : path ≠ [] := by
  rintro rfl
  simp at h

theorem at?_first (a : α) (below rest : Forest α) :
    (cons a below rest).at? [0] = some ⟨a, below⟩ := rfl

theorem at?_below (a : α) (below rest : Forest α) (i : Nat) (path : Path) :
    (cons a below rest).at? (0 :: i :: path) = below.at? (i :: path) := rfl

theorem at?_rest (a : α) (below rest : Forest α) (i : Nat) (path : Path) :
    (cons a below rest).at? ((i + 1) :: path) = rest.at? (i :: path) := rfl

/-- A path leads to the first root, below it, or past its tree. -/
theorem at?_cons_eq_some_iff {a : α} {below rest : Forest α} {path : Path} {t : Tree α} :
    (cons a below rest).at? path = some t ↔
      path = [0] ∧ t = ⟨a, below⟩ ∨
        (∃ q, path = 0 :: q ∧ below.at? q = some t) ∨
        ∃ i q, path = (i + 1) :: q ∧ rest.at? (i :: q) = some t := by
  match path with
  | [] => simp
  | [0] => simp [at?_first, eq_comm]
  | 0 :: i :: q => simp [at?_below]
  | (i + 1) :: q =>
      rw [at?_rest]
      constructor
      · intro h
        exact .inr (.inr ⟨i, q, rfl, h⟩)
      · rintro (⟨h, _⟩ | ⟨_, h, _⟩ | ⟨_, _, h, ht⟩)
        · cases h
        · cases h
        · cases h
          exact ht

/-- Nodes are above every node, up to the roots. -/
theorem isSome_at?_above {f : Forest α} {path q : Path} (hq : q <+: path) (hne : q ≠ [])
    (h : (f.at? path).isSome = true) : (f.at? q).isSome = true := by
  induction f generalizing path q with
  | nil => simp [at?] at h
  | cons a below rest ihb ihr =>
      obtain ⟨t, ht⟩ := Option.isSome_iff_exists.mp h
      rcases at?_cons_eq_some_iff.mp ht with ⟨rfl, rfl⟩ | ⟨path, rfl, hp⟩ | ⟨i, path, rfl, hp⟩
      · obtain ⟨q, rfl, hnil⟩ := (List.prefix_cons_iff.mp hq).resolve_left hne
        rw [List.prefix_nil.mp hnil]
        rfl
      · obtain ⟨q, rfl, hlower⟩ := (List.prefix_cons_iff.mp hq).resolve_left hne
        cases q with
        | nil => rfl
        | cons j q => exact ihb hlower (by simp) (Option.isSome_of_eq_some hp)
      · obtain ⟨q, rfl, hlower⟩ := (List.prefix_cons_iff.mp hq).resolve_left hne
        have hi : i :: q <+: i :: path := List.cons_prefix_cons.mpr ⟨rfl, hlower⟩
        exact ihr hi (by simp) (Option.isSome_of_eq_some hp)

theorem at?_append {f : Forest α} {above path : Path} (ha : above ≠ []) (hp : path ≠ []) :
    f.at? (above ++ path) = (f.at? above).bind (·.below.at? path) := by
  induction f generalizing above with
  | nil => rfl
  | cons a below rest ihb ihr =>
      match above with
      | [] => contradiction
      | [0] =>
          obtain ⟨i, path, rfl⟩ := List.exists_cons_of_ne_nil hp
          rfl
      | 0 :: i :: above => exact ihb (List.cons_ne_nil i above)
      | (i + 1) :: above => exact ihr (List.cons_ne_nil i above)

theorem hasChildren_of_at?_append {f : Forest α} {above path : Path} {n t : Tree α}
    (ha : f.at? above = some n) (hp : path ≠ []) (ht : f.at? (above ++ path) = some t) :
    n.hasChildren = true := by
  rw [at?_append (ne_nil_of_at?_eq_some ha) hp, ha] at ht
  change n.below.at? path = some t at ht
  cases hb : n.below with
  | nil =>
      rw [hb] at ht
      cases ht
  | cons a below rest => simp [Tree.hasChildren, hb, isEmpty]

theorem preorder_subset_of_at? {f : Forest α} {path : Path} {t : Tree α}
    (h : f.at? path = some t) : t.preorder ⊆ f.preorder := by
  induction f generalizing path with
  | nil => simp [at?] at h
  | cons a below rest ihb ihr =>
      rcases at?_cons_eq_some_iff.mp h with ⟨_, rfl⟩ | ⟨q, _, hq⟩ | ⟨i, q, _, hq⟩
      · exact List.cons_subset_cons a (List.subset_append_left _ _)
      · apply List.subset_cons_of_subset
        exact List.Subset.trans (ihb hq) (List.subset_append_left _ _)
      · apply List.subset_cons_of_subset
        exact List.Subset.trans (ihr hq) (List.subset_append_right _ _)

theorem preorder_subset_above {f : Forest α} {above path : Path} {n t : Tree α}
    (h : above <+: path) (hn : f.at? above = some n) (ht : f.at? path = some t) :
    t.preorder ⊆ n.preorder := by
  obtain ⟨path, rfl⟩ := h
  by_cases hp : path = []
  · rw [hp, List.append_nil, hn] at ht
    cases ht
    exact List.Subset.refl _
  · rw [at?_append (ne_nil_of_at?_eq_some hn) hp, hn] at ht
    exact List.subset_cons_of_subset _ (preorder_subset_of_at? ht)

def walk : Forest α → List (Tree α)
  | nil => []
  | cons a below rest => ⟨a, below⟩ :: (walk below ++ walk rest)

end Forest

def Tree.walk {α : Type} (t : Tree α) : List (Tree α) :=
  t :: t.below.walk

namespace Forest

variable {α β : Type}

theorem walk_eq_flatMap (f : Forest α) : f.walk = f.toList.flatMap Tree.walk := by
  induction f with
  | nil => rfl
  | cons a below rest _ ih => simp [walk, toList, Tree.walk, ih]

theorem mem_located {f : Forest α} {above : Path} {index : Nat} {x : Path × α} :
    x ∈ f.located above index ↔
      ∃ path t, f.at? path = some t ∧ x = (path.moved above index, t.root) := by
  induction f generalizing above index with
  | nil => simp [located, at?]
  | cons a below rest ihb ihr =>
      simp only [located, List.mem_cons, List.mem_append, ihb, ihr]
      constructor
      · rintro (rfl | ⟨path, t, ht, rfl⟩ | ⟨path, t, ht, rfl⟩)
        · exact ⟨[0], _, at?_first a below rest, rfl⟩
        · refine ⟨0 :: path, t, at?_cons_eq_some_iff.mpr (.inr (.inl ⟨path, rfl, ht⟩)), ?_⟩
          rw [Path.moved_below]
        · cases path with
          | nil => simp at ht
          | cons i path => exact ⟨(i + 1) :: path, t, ht, by rw [Path.moved_rest]⟩
      · rintro ⟨path, t, ht, rfl⟩
        rcases at?_cons_eq_some_iff.mp ht with ⟨rfl, rfl⟩ | ⟨q, rfl, hq⟩ | ⟨i, q, rfl, hq⟩
        · exact .inl rfl
        · exact .inr (.inl ⟨q, t, hq, by rw [Path.moved_below]⟩)
        · exact .inr (.inr ⟨i :: q, t, hq, by rw [Path.moved_rest]⟩)

/-! Marked forests. -/

/-- The tree in the marked forest that stands in the place of a tree. -/
def markTree (p : α → Bool) (t : Tree α) : Tree (α × Bool) :=
  let marked := markUp p t.below
  ⟨(t.root, p t.root || marked.anyRoot (·.2)), marked⟩

theorem at?_markUp (p : α → Bool) (f : Forest α) (path : Path) :
    (markUp p f).at? path = (f.at? path).map (markTree p) := by
  induction f generalizing path with
  | nil => simp [markUp, at?]
  | cons a below rest ihb ihr =>
      match path with
      | [] => rfl
      | [0] => rfl
      | 0 :: i :: q => exact ihb (i :: q)
      | (i + 1) :: q => exact ihr (i :: q)

@[simp] theorem isEmpty_markUp (p : α → Bool) (f : Forest α) :
    (markUp p f).isEmpty = f.isEmpty := by
  cases f <;> rfl

@[simp] theorem hasChildren_markTree (p : α → Bool) (t : Tree α) :
    (markTree p t).hasChildren = t.hasChildren := by
  simp [Tree.hasChildren, markTree]

/-- Marking changes no path. -/
theorem paths_located_markUp (p : α → Bool) (f : Forest α) (above : Path) (index : Nat) :
    ((markUp p f).located above index).map Prod.fst = (f.located above index).map Prod.fst := by
  induction f generalizing above index with
  | nil => rfl
  | cons a below rest ihb ihr => simp [markUp, located, ihb, ihr]

/-- The paths of the matches lead to the trees that are marked. -/
theorem mem_matchPaths {f : Forest Head} {term : String} {path : Path} :
    path ∈ f.matchPaths term ↔ ∃ t, (f.markMatches term).at? path = some t ∧ t.root.2 = true := by
  simp only [matchPaths, List.mem_filterMap, mem_located, Path.moved_nil_zero]
  constructor
  · rintro ⟨x, ⟨q, t, ht, rfl⟩, hx⟩
    simp only [Option.ite_none_right_eq_some, Option.some.injEq] at hx
    obtain ⟨hm, rfl⟩ := hx
    exact ⟨t, ht, hm⟩
  · rintro ⟨t, ht, hm⟩
    exact ⟨(path, t.root), ⟨path, t, ht, rfl⟩, by simp [hm]⟩

theorem mem_matchPaths_iff_of_at? {f : Forest Head} {term : String} {path : Path}
    {t : Tree (Head × Bool)} (h : (f.markMatches term).at? path = some t) :
    path ∈ f.matchPaths term ↔ t.root.2 = true := by
  rw [mem_matchPaths, h]
  simp

/-- Following the listed paths walks through the forest. -/
theorem located_map_at? {f root : Forest α} {above : Path} {index : Nat}
    (h : ∀ i path, root.at? (Path.moved (i :: path) above index) = f.at? (i :: path)) :
    (f.located above index).map (fun x => root.at? x.1) = f.walk.map some := by
  induction f generalizing above index with
  | nil => rfl
  | cons a below rest ihb ihr =>
      have hfirst := h 0 []
      have hbelow (i : Nat) (path : Path) :
          root.at? (Path.moved (i :: path) (above ++ [index]) 0) = below.at? (i :: path) := by
        rw [← Path.moved_below]
        exact h 0 (i :: path)
      have hrest (i : Nat) (path : Path) :
          root.at? (Path.moved (i :: path) above (index + 1)) = rest.at? (i :: path) := by
        rw [← Path.moved_rest]
        exact h (i + 1) path
      rw [Path.moved_first, at?_first] at hfirst
      simp [located, walk, hfirst, ihb hbelow, ihr hrest]

end Forest

end QueryOutline
