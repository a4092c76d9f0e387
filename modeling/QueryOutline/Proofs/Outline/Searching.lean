import QueryOutline.Proofs.Outline.Matches
import QueryOutline.Proofs.Outline.Visible

/-!
Searching. A search opens the nodes above what it finds, so that it shows more than there
was and changes nothing else. While rows are derived the overrides are asked about single
nodes, and they bring themselves up to date whenever they are asked. That is all that any
number of searches leaves behind, and the next rows would have done it anyway.
-/

namespace QueryOutline

namespace Overrides

def look (t : Toolbar) (path : Path) : StateM Overrides Bool := do
  modify (·.reconcile t)
  let o ← get
  return (o.get? path).getD t.defaultOpen

/-- Whether the row of a node is open. Nobody asks about a node that has no children or
that matches. -/
def lookRow (t : Toolbar) (hasChildren isMatch : Bool) (path : Path) :
    StateM Overrides Bool :=
  if hasChildren then if isMatch then pure true else look t path else pure false

end Overrides

namespace Row

/-- The rows of a forest of marked nodes, with the overrides at hand. -/
def emitLooking (t : Toolbar) (term : String) (above : Path) (index : Nat) :
    Forest (Head × Bool) → StateM Overrides (List Row)
  | .nil => return []
  | .cons (head, isMatch) below rest => do
      let path := above ++ [index]
      let hasChildren := !below.isEmpty
      let isOpen ← Overrides.lookRow t hasChildren isMatch path
      let inside ← (if isOpen then emitLooking t term path 0 below else return [])
      let others ← emitLooking t term above (index + 1) rest
      return { path, hasChildren, isOpen, isMatch
               depth := above.length
               segments := head.header above.isEmpty hasChildren isOpen term } ::
        (inside ++ others)

def derive (f : Forest Head) (t : Toolbar) (term : Option String) :
    StateM Overrides (List Row) := do
  modify (·.reconcile t)
  let term := term.getD t.effectiveTerm
  emitLooking t term [] 0 (f.markMatches term)

/-- The overrides after rows have been derived again and again. -/
def overridesAfter (t : Toolbar) (o : Overrides) :
    List (Forest Head × Option String) → Overrides
  | [] => o
  | (f, term) :: searches => overridesAfter t ((derive f t term).run o).2 searches

end Row

/-! What is left of the overrides. -/

theorem run_bind_of_run {σ α β : Type} {x : StateM σ α} {k : α → StateM σ β} {s s' : σ} {a : α}
    (h : x.run s = (a, s')) : (x >>= k).run s = (k a).run s' := by
  rw [StateT.run_bind, h]
  rfl

variable {t : Toolbar} {o : Overrides}

namespace Overrides

@[simp] theorem isOpen_reconcile (o : Overrides) (t : Toolbar) :
    (o.reconcile t).isOpen t = o.isOpen t := by
  funext path
  rw [isOpen, reconcile_reconcile, isOpen]

/-- Overrides that are up to date stay as they are when they are asked. -/
theorem run_lookRow (h : o.reconcile t = o) (hasChildren isMatch : Bool) (path : Path) :
    (lookRow t hasChildren isMatch path).run o =
      (hasChildren && (isMatch || o.isOpen t path), o) := by
  have hlook : (look t path).run o = (o.isOpen t path, o.reconcile t) := rfl
  rw [h] at hlook
  cases hasChildren with
  | false => rfl
  | true =>
      cases isMatch with
      | true => rfl
      | false => exact hlook

end Overrides

namespace Row

variable {term : String} {above : Path} {index : Nat}

theorem run_emitLooking (h : o.reconcile t = o) (f : Forest (Head × Bool)) :
    (emitLooking t term above index f).run o = (emit (o.isOpen t) term above index f, o) := by
  induction f generalizing above index with
  | nil => rfl
  | cons a below rest ihb ihr =>
      rw [emitLooking, emit, run_bind_of_run (Overrides.run_lookRow h _ _ _)]
      have hinside (isOpen : Bool) :
          StateT.run (if isOpen then emitLooking t term (above ++ [index]) 0 below else pure []) o =
            (if isOpen then emit (o.isOpen t) term (above ++ [index]) 0 below else [], o) := by
        cases isOpen with
        | true => exact ihb
        | false => rfl
      rw [run_bind_of_run (hinside _), run_bind_of_run ihr]
      rfl

theorem run_derive (f : Forest Head) (t : Toolbar) (o : Overrides) (term : Option String) :
    (derive f t term).run o = (ofForest f t o term, o.reconcile t) := by
  have hstart : (modify (·.reconcile t) : StateM Overrides Unit).run o = ((), o.reconcile t) :=
    rfl
  rw [derive, run_bind_of_run hstart, run_emitLooking (o.reconcile_reconcile t),
    Overrides.isOpen_reconcile]
  rfl

theorem overridesAfter_of_ne_nil {searches : List (Forest Head × Option String)}
    (h : searches ≠ []) : overridesAfter t o searches = o.reconcile t := by
  induction searches generalizing o with
  | nil => contradiction
  | cons search searches ih =>
      rw [overridesAfter, run_derive]
      by_cases hs : searches = []
      · rw [hs, overridesAfter]
      · rw [ih hs, Overrides.reconcile_reconcile]

theorem ofForest_reconcile (f : Forest Head) (t : Toolbar) (o : Overrides)
    (term : Option String) : ofForest f t (o.reconcile t) term = ofForest f t o term := by
  rw [ofForest, Overrides.isOpen_reconcile, ofForest]

end Row

/-! What a search shows. -/

namespace Forest

variable {f : Forest Head} {term other : String} {path : Path}

/-- Two searches that agree on a node have it open or not alike. -/
theorem isOpenAt_congr (h : path ∈ f.matchPaths term ↔ path ∈ f.matchPaths other) :
    f.IsOpenAt t o term path ↔ f.IsOpenAt t o other path := by
  simp only [IsOpenAt, h]

theorem IsOpenAt.of_isOpenAt_empty (h : f.IsOpenAt t o "" path) : f.IsOpenAt t o term path := by
  obtain ⟨n, hn, hc, hfound | hopen⟩ := h
  · rw [matchPaths_empty] at hfound
    cases hfound
  · exact ⟨n, hn, hc, .inr hopen⟩

/-- What a search finds has only nodes above it that are found as well. -/
theorem isVisible_of_mem_matchPaths (h : path ∈ f.matchPaths term) :
    f.IsVisible t o term path := by
  obtain ⟨u, hu, _⟩ := mem_matchPaths_iff_any.mp h
  refine ⟨Option.isSome_of_eq_some hu, ?_⟩
  intro q hq hne hlower
  have hfound : q ∈ f.matchPaths term := mem_matchPaths_above hq hne h
  obtain ⟨n, hn, _⟩ := mem_matchPaths_iff_any.mp hfound
  obtain ⟨below, rfl⟩ := hq
  have hbelow : below ≠ [] := by
    rintro rfl
    exact hlower (List.append_nil q).symm
  exact ⟨n, hn, hasChildren_of_at?_append hn hbelow hu, .inl hfound⟩

theorem IsVisible.of_isVisible_empty (h : f.IsVisible t o "" path) :
    f.IsVisible t o term path := by
  refine ⟨h.1, ?_⟩
  intro q hq hne hlower
  exact (h.2 q hq hne hlower).of_isOpenAt_empty

end Forest

namespace Row

/-- A search shows what it finds and all that is there without it, and it opens nothing but
what it finds. Of the overrides it takes no more notice than to bring them up to date, so
that afterwards the rows are what they would have been. -/
theorem search_reveals (f : Forest Head) (t : Toolbar) (o : Overrides) (term : Option String) :
    let found := f.matchPaths (term.getD t.effectiveTerm)
    let rows := ofForest f t o term
    let plain := ofForest f t o (some "")
    (∀ path ∈ found, path ∈ rows.map (·.path)) ∧
      (∀ path ∈ plain.map (·.path), path ∈ rows.map (·.path)) ∧
      (∀ r ∈ rows, ∀ p ∈ plain, r.path = p.path → r.path ∉ found → r.isOpen = p.isOpen) ∧
      (∀ other, (derive f t other).run o = (ofForest f t o other, o.reconcile t)) ∧
      ∀ searches ≠ [], overridesAfter t o searches = o.reconcile t ∧
        ((derive f t (some "")).run (overridesAfter t o searches)).1 = plain := by
  intro found rows plain
  refine ⟨?_, ?_, ?_, run_derive f t o, ?_⟩
  · intro path hpath
    exact mem_map_path_ofForest.mpr (Forest.isVisible_of_mem_matchPaths hpath)
  · intro path hpath
    have hvisible : f.IsVisible t o "" path := mem_map_path_ofForest.mp hpath
    exact mem_map_path_ofForest.mpr hvisible.of_isVisible_empty
  · intro r hr p hp hpath hfound
    have hagree : r.path ∈ found ↔ r.path ∈ f.matchPaths "" := by
      simp [hfound, Forest.matchPaths_empty]
    rw [Bool.eq_iff_iff, isOpen_iff_of_mem_ofForest hr, isOpen_iff_of_mem_ofForest hp, ← hpath]
    exact Forest.isOpenAt_congr hagree
  · intro searches hne
    have hafter : overridesAfter t o searches = o.reconcile t := overridesAfter_of_ne_nil hne
    refine ⟨hafter, ?_⟩
    rw [hafter, run_derive, ofForest_reconcile]

/-- Below closed nodes there is no row without the search. -/
theorem search_reveals_name :
    let field (name : String) (below rest : Forest Head) : Forest Head :=
      .cons { kind := .field, name } below rest
    let forest : Forest Head := .cons { kind := .operation }
      (field "user" (field "name" .nil .nil) (field "pet" (field "id" .nil .nil) .nil)) .nil
    let closed : Toolbar := { generation := ⟨0, 1⟩ }
    [0, 0, 0] ∈ forest.matchPaths "name" ∧
      [0, 0, 0] ∈ (ofForest forest closed {} (some "name")).map (·.path) ∧
      [0, 0, 0] ∉ (ofForest forest closed {} (some "")).map (·.path) ∧
      overridesAfter closed {} [(forest, some "name")] = ({} : Overrides).reconcile closed := by
  intro field forest closed
  obtain ⟨hfound, -, -, -, hafter⟩ := search_reveals forest closed {} (some "name")
  have hmatch : [0, 0, 0] ∈ forest.matchPaths "name" := by decide +kernel
  exact ⟨hmatch, hfound _ hmatch, by decide +kernel, (hafter [(forest, some "name")] (by simp)).1⟩

end Row

end QueryOutline
