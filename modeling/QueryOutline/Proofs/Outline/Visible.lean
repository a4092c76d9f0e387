import QueryOutline.Outline.Row
import QueryOutline.Proofs.Outline.Located

/-!
Visible nodes. A node is visible when every node above it is open, and the rows of
a document are its visible nodes: each has one row, the rows come in the order of
the document, and a row says of its node what is so. With everything open nothing
is left out.
-/

namespace QueryOutline

namespace Row

variable {openAt : Path → Bool} {term : String} {above : Path} {index : Nat}

def ofTree (openAt : Path → Bool) (term : String) (path : Path) (t : Tree (Head × Bool)) : Row :=
  let isOpen := t.hasChildren && (t.root.2 || openAt path)
  { path, isOpen, hasChildren := t.hasChildren, isMatch := t.root.2
    depth := path.length - 1
    segments := t.root.1.header (path.length == 1) t.hasChildren isOpen term }

theorem emit_cons (openAt : Path → Bool) (term : String) (above : Path) (index : Nat)
    (a : Head × Bool) (below rest : Forest (Head × Bool)) :
    emit openAt term above index (.cons a below rest) =
      ofTree openAt term (above ++ [index]) ⟨a, below⟩ ::
        ((if (ofTree openAt term (above ++ [index]) ⟨a, below⟩).isOpen then
            emit openAt term (above ++ [index]) 0 below else []) ++
          emit openAt term above (index + 1) rest) := by
  have hd : ((above ++ [index]).length == 1) = above.isEmpty := by
    cases above <;> simp
  have hl : (above ++ [index]).length - 1 = above.length := by simp
  simp only [emit, ofTree, hd, hl, Tree.hasChildren]

/-- Below an open root there are the rows of the forest below it, and none otherwise. -/
theorem mem_emit_cons {r : Row} {a : Head × Bool} {below rest : Forest (Head × Bool)} :
    r ∈ emit openAt term above index (.cons a below rest) ↔
      r = ofTree openAt term (above ++ [index]) ⟨a, below⟩ ∨
        (ofTree openAt term (above ++ [index]) ⟨a, below⟩).isOpen = true ∧
          r ∈ emit openAt term (above ++ [index]) 0 below ∨
        r ∈ emit openAt term above (index + 1) rest := by
  rw [emit_cons]
  split
  · next h => simp [h]
  · next h => simp [h]

/-- All nodes above a path have open rows. -/
def AboveOpen (openAt : Path → Bool) (term : String) (above : Path) (index : Nat)
    (f : Forest (Head × Bool)) (path : Path) : Prop :=
  ∀ (q : Path) t, q <+: path → q ≠ path → f.at? q = some t →
    (ofTree openAt term (q.moved above index) t).isOpen = true

theorem aboveOpen_first (a : Head × Bool) (below rest : Forest (Head × Bool)) :
    AboveOpen openAt term above index (.cons a below rest) [0] := by
  intro q t hq hne ht
  rcases List.prefix_cons_iff.mp hq with rfl | ⟨q, rfl, hnil⟩
  · simp at ht
  · rw [List.prefix_nil] at hnil
    subst hnil
    contradiction

theorem aboveOpen_below {a : Head × Bool} {below rest : Forest (Head × Bool)} {path : Path}
    (hpath : path ≠ []) :
    AboveOpen openAt term above index (.cons a below rest) (0 :: path) ↔
      (ofTree openAt term (above ++ [index]) ⟨a, below⟩).isOpen = true ∧
        AboveOpen openAt term (above ++ [index]) 0 below path := by
  constructor
  · intro h
    refine ⟨?_, ?_⟩
    · exact h [0] ⟨a, below⟩ (by simp) (by simpa using hpath.symm) rfl
    · intro q t hq hne ht
      rw [← Path.moved_below]
      refine h (0 :: q) t (by simpa using hq) (by simpa using hne) ?_
      exact Forest.at?_cons_eq_some_iff.mpr (.inr (.inl ⟨q, rfl, ht⟩))
  · rintro ⟨hroot, h⟩ q t hq hne ht
    rcases Forest.at?_cons_eq_some_iff.mp ht with ⟨rfl, rfl⟩ | ⟨q, rfl, hq'⟩ | ⟨i, q, rfl, _⟩
    · exact hroot
    · rw [Path.moved_below]
      exact h q t (by simpa using hq) (by simpa using hne) hq'
    · simp at hq

theorem aboveOpen_rest {a : Head × Bool} {below rest : Forest (Head × Bool)} {i : Nat}
    {path : Path} :
    AboveOpen openAt term above index (.cons a below rest) ((i + 1) :: path) ↔
      AboveOpen openAt term above (index + 1) rest (i :: path) := by
  constructor
  · intro h q t hq hne ht
    cases q with
    | nil => simp at ht
    | cons j q =>
        obtain ⟨rfl, hq⟩ := List.cons_prefix_cons.mp hq
        rw [← Path.moved_rest]
        exact h ((j + 1) :: q) t (by simpa using hq) (by simpa using hne) ht
  · intro h q t hq hne ht
    rcases Forest.at?_cons_eq_some_iff.mp ht with ⟨rfl, rfl⟩ | ⟨q, rfl, _⟩ | ⟨j, q, rfl, hq'⟩
    · simp at hq
    · simp at hq
    · rw [Path.moved_rest]
      obtain ⟨hj, hq⟩ := List.cons_prefix_cons.mp hq
      cases hj
      exact h (i :: q) t (by simpa using hq) (by simpa using hne) hq'

/-- A row belongs to a node with only open nodes above it. -/
theorem mem_emit {f : Forest (Head × Bool)} {r : Row} :
    r ∈ emit openAt term above index f ↔
      ∃ path t, f.at? path = some t ∧ AboveOpen openAt term above index f path ∧
        r = ofTree openAt term (path.moved above index) t := by
  induction f generalizing above index with
  | nil => simp [emit, Forest.at?]
  | cons a below rest ihb ihr =>
      rw [mem_emit_cons, ihb, ihr]
      constructor
      · rintro (rfl | ⟨hopen, path, t, ht, ha, rfl⟩ | ⟨path, t, ht, ha, rfl⟩)
        · exact ⟨[0], _, rfl, aboveOpen_first a below rest, rfl⟩
        · have hpath := Forest.ne_nil_of_at?_eq_some ht
          refine ⟨0 :: path, t, ?_, (aboveOpen_below hpath).mpr ⟨hopen, ha⟩, ?_⟩
          · exact Forest.at?_cons_eq_some_iff.mpr (.inr (.inl ⟨path, rfl, ht⟩))
          · rw [Path.moved_below]
        · cases path with
          | nil => simp at ht
          | cons i path =>
              exact ⟨(i + 1) :: path, t, ht, aboveOpen_rest.mpr ha, by rw [Path.moved_rest]⟩
      · rintro ⟨path, t, ht, ha, rfl⟩
        rcases Forest.at?_cons_eq_some_iff.mp ht with ⟨rfl, rfl⟩ | ⟨q, rfl, hq⟩ | ⟨i, q, rfl, hq⟩
        · exact .inl rfl
        · have hpath := Forest.ne_nil_of_at?_eq_some hq
          obtain ⟨hopen, ha⟩ := (aboveOpen_below hpath).mp ha
          exact .inr (.inl ⟨hopen, q, t, hq, ha, by rw [Path.moved_below]⟩)
        · exact .inr (.inr ⟨i :: q, t, hq, aboveOpen_rest.mp ha, by rw [Path.moved_rest]⟩)

/-! The order of the rows. -/

theorem exists_path_of_mem_emit {f : Forest (Head × Bool)} {r : Row}
    (h : r ∈ emit openAt term above index f) : ∃ i path, r.path = above ++ (index + i) :: path := by
  obtain ⟨path, t, ht, _, rfl⟩ := mem_emit.mp h
  cases path with
  | nil => simp at ht
  | cons i path => exact ⟨i, path, rfl⟩

theorem exists_path_of_mem_below {a : Head × Bool} {below : Forest (Head × Bool)} {r : Row}
    (h : r ∈ if (ofTree openAt term (above ++ [index]) ⟨a, below⟩).isOpen then
      emit openAt term (above ++ [index]) 0 below else []) :
    ∃ i path, r.path = above ++ index :: i :: path := by
  split at h
  · obtain ⟨i, path, hp⟩ := exists_path_of_mem_emit h
    exact ⟨0 + i, path, by simp [hp]⟩
  · cases h

theorem pairwise_path_emit (openAt : Path → Bool) (term : String) (above : Path) (index : Nat)
    (f : Forest (Head × Bool)) :
    (emit openAt term above index f).Pairwise fun r s => List.Lex (· < ·) r.path s.path := by
  induction f generalizing above index with
  | nil => exact List.Pairwise.nil
  | cons a below rest ihb ihr =>
      rw [emit_cons, List.pairwise_cons, List.pairwise_append]
      refine ⟨?_, ?_, ihr above (index + 1), ?_⟩
      -- the root before all others
      · intro r hr
        change List.Lex (· < ·) (above ++ [index]) r.path
        rcases List.mem_append.mp hr with hr | hr
        · obtain ⟨i, path, hp⟩ := exists_path_of_mem_below hr
          rw [hp]
          exact List.append_left_lt (.cons .nil)
        · obtain ⟨i, path, hp⟩ := exists_path_of_mem_emit hr
          rw [hp]
          exact List.append_left_lt (.rel (by omega))
      · split
        · exact ihb (above ++ [index]) 0
        · exact List.Pairwise.nil
      -- what is below it before the other trees
      · intro r hr s hs
        obtain ⟨i, path, hr⟩ := exists_path_of_mem_below hr
        obtain ⟨j, other, hs⟩ := exists_path_of_mem_emit hs
        rw [hr, hs]
        exact List.append_left_lt (.rel (by omega))

/-! Rows with everything open. -/

theorem map_path_emit {f : Forest (Head × Bool)}
    (h : ∀ (path : Path) t, f.at? path = some t → t.hasChildren = true →
      (ofTree openAt term (path.moved above index) t).isOpen = true) :
    (emit openAt term above index f).map (·.path) = (f.located above index).map Prod.fst := by
  induction f generalizing above index with
  | nil => rfl
  | cons a below rest ihb ihr =>
      have hb : ∀ (path : Path) t, below.at? path = some t → t.hasChildren = true →
          (ofTree openAt term (path.moved (above ++ [index]) 0) t).isOpen = true := by
        intro path t ht hc
        rw [← Path.moved_below]
        exact h (0 :: path) t (Forest.at?_cons_eq_some_iff.mpr (.inr (.inl ⟨path, rfl, ht⟩))) hc
      have hr : ∀ (path : Path) t, rest.at? path = some t → t.hasChildren = true →
          (ofTree openAt term (path.moved above (index + 1)) t).isOpen = true := by
        intro path t ht hc
        cases path with
        | nil => simp at ht
        | cons i path =>
            rw [← Path.moved_rest]
            exact h ((i + 1) :: path) t ht hc
      rw [emit_cons, List.map_cons, List.map_append, ihr hr, Forest.located, List.map_cons,
        List.map_append, ← ihb hb]
      cases below with
      | nil => simp [ofTree, emit]
      | cons b below' rest' =>
          have ho := h [0] _ rfl rfl
          rw [Path.moved_first] at ho
          rw [if_pos ho]
          rfl

end Row

/-! What is open and visible in a document. -/

namespace Forest

/-- A node with children is open when it matches the search or has been left open. -/
def IsOpenAt (f : Forest Head) (t : Toolbar) (o : Overrides) (term : String) (path : Path) :
    Prop :=
  ∃ n, f.at? path = some n ∧ n.hasChildren = true ∧
    (path ∈ f.matchPaths term ∨ o.isOpen t path = true)

/-- A node is visible when all nodes above it are open. -/
def IsVisible (f : Forest Head) (t : Toolbar) (o : Overrides) (term : String) (path : Path) :
    Prop :=
  (f.at? path).isSome = true ∧
    ∀ q, q <+: path → q ≠ [] → q ≠ path → f.IsOpenAt t o term q

variable {f : Forest Head} {t : Toolbar} {o : Overrides} {term : String} {path : Path}

theorem IsVisible.of_above {above : Path} (h : f.IsVisible t o term path) (habove : above <+: path)
    (hne : above ≠ []) : f.IsVisible t o term above := by
  refine ⟨isSome_at?_above habove hne h.1, ?_⟩
  intro q hq hqne hlower
  apply h.2 q (hq.trans habove) hqne
  rintro rfl
  exact hlower (hq.eq_of_length_le habove.length_le)

theorem isOpen_ofTree_iff {u : Tree (Head × Bool)} (h : (f.markMatches term).at? path = some u) :
    (Row.ofTree (o.isOpen t) term path u).isOpen = true ↔ f.IsOpenAt t o term path := by
  have hm := mem_matchPaths_iff_of_at? h
  rw [markMatches, at?_markUp, Option.map_eq_some_iff] at h
  obtain ⟨n, hn, rfl⟩ := h
  simp only [Row.ofTree, Bool.and_eq_true, Bool.or_eq_true, hasChildren_markTree, IsOpenAt, hn,
    hm]
  simp

theorem isVisible_iff : f.IsVisible t o term path ↔
    ∃ u, (f.markMatches term).at? path = some u ∧
      Row.AboveOpen (o.isOpen t) term [] 0 (f.markMatches term) path := by
  constructor
  · rintro ⟨hp, h⟩
    obtain ⟨n, hn⟩ := Option.isSome_iff_exists.mp hp
    refine ⟨markTree _ n, by rw [markMatches, at?_markUp, hn, Option.map_some], ?_⟩
    intro q u hq hne hu
    rw [Path.moved_nil_zero]
    exact (isOpen_ofTree_iff hu).mpr (h q hq (ne_nil_of_at?_eq_some hu) hne)
  -- what stands above a node is a node of its own, so that it is asked about
  · rintro ⟨u, hu, h⟩
    have hp : ((f.markMatches term).at? path).isSome = true := Option.isSome_of_eq_some hu
    refine ⟨by simpa [markMatches, at?_markUp] using hp, ?_⟩
    intro q hq hnil hne
    obtain ⟨v, hv⟩ := Option.isSome_iff_exists.mp (isSome_at?_above hq hnil hp)
    have ho := h q v hq hne hv
    rw [Path.moved_nil_zero] at ho
    exact (isOpen_ofTree_iff hv).mp ho

end Forest

namespace Row

variable {f : Forest Head} {t : Toolbar} {o : Overrides}

/-- The rows of a document are those of its visible nodes. -/
theorem mem_ofForest {term : Option String} {r : Row} :
    r ∈ ofForest f t o term ↔
      ∃ path u, (f.markMatches (term.getD t.effectiveTerm)).at? path = some u ∧
        f.IsVisible t o (term.getD t.effectiveTerm) path ∧
        r = ofTree (o.isOpen t) (term.getD t.effectiveTerm) path u := by
  rw [ofForest, mem_emit]
  constructor
  · rintro ⟨path, u, hu, ha, rfl⟩
    refine ⟨path, u, hu, Forest.isVisible_iff.mpr ⟨u, hu, ha⟩, ?_⟩
    rw [Path.moved_nil_zero]
  · rintro ⟨path, u, hu, hv, rfl⟩
    obtain ⟨v, _, ha⟩ := Forest.isVisible_iff.mp hv
    refine ⟨path, u, hu, ha, ?_⟩
    rw [Path.moved_nil_zero]

theorem isOpen_iff_of_mem_ofForest {term : Option String} {r : Row} (h : r ∈ ofForest f t o term) :
    r.isOpen = true ↔ f.IsOpenAt t o (term.getD t.effectiveTerm) r.path := by
  obtain ⟨path, u, hu, _, rfl⟩ := mem_ofForest.mp h
  exact Forest.isOpen_ofTree_iff hu

theorem mem_map_path_ofForest {term : Option String} {path : Path} :
    path ∈ (ofForest f t o term).map (·.path) ↔
      f.IsVisible t o (term.getD t.effectiveTerm) path := by
  rw [List.mem_map]
  constructor
  · rintro ⟨r, hr, rfl⟩
    obtain ⟨path, u, _, hv, rfl⟩ := mem_ofForest.mp hr
    exact hv
  · intro hv
    obtain ⟨u, hu, _⟩ := Forest.isVisible_iff.mp hv
    exact ⟨_, mem_ofForest.mpr ⟨path, u, hu, hv, rfl⟩, rfl⟩

theorem pairwise_path_ofForest (f : Forest Head) (t : Toolbar) (o : Overrides)
    (term : Option String) :
    ((ofForest f t o term).map (·.path)).Pairwise (List.Lex (· < ·)) := by
  rw [List.pairwise_map]
  exact pairwise_path_emit _ _ _ _ _

theorem nodup_path_ofForest (f : Forest Head) (t : Toolbar) (o : Overrides)
    (term : Option String) : ((ofForest f t o term).map (·.path)).Nodup := by
  refine (pairwise_path_ofForest f t o term).imp ?_
  rintro path _ h rfl
  exact List.lex_irrefl Nat.lt_irrefl path h

/-- With everything open the rows follow the walk through the document. -/
theorem map_at?_ofForest {term : Option String}
    (h : ∀ path n, f.at? path = some n → n.hasChildren = true →
      f.IsOpenAt t o (term.getD t.effectiveTerm) path) :
    (ofForest f t o term).map (fun r => f.at? r.path) =
      (f.toList.flatMap Tree.walk).map some := by
  have hopen : ∀ (path : Path) u,
      (f.markMatches (term.getD t.effectiveTerm)).at? path = some u → u.hasChildren = true →
        (ofTree (o.isOpen t) (term.getD t.effectiveTerm) (path.moved [] 0) u).isOpen = true := by
    intro path u hu hc
    rw [Path.moved_nil_zero]
    refine (Forest.isOpen_ofTree_iff hu).mpr ?_
    rw [Forest.markMatches, Forest.at?_markUp, Option.map_eq_some_iff] at hu
    obtain ⟨n, hn, rfl⟩ := hu
    exact h path n hn (by simpa using hc)
  have hpath : (ofForest f t o term).map (·.path) = (f.located [] 0).map Prod.fst := by
    rw [ofForest, map_path_emit hopen, Forest.markMatches, Forest.paths_located_markUp]
  calc (ofForest f t o term).map (fun r => f.at? r.path)
      = ((ofForest f t o term).map (·.path)).map f.at? := by rw [List.map_map]; rfl
    _ = (f.located [] 0).map (fun x => f.at? x.1) := by rw [hpath, List.map_map]; rfl
    _ = f.walk.map some := Forest.located_map_at? fun i path => by rw [Path.moved_nil_zero]
    _ = (f.toList.flatMap Tree.walk).map some := by rw [Forest.walk_eq_flatMap]

/-- The rows are the visible nodes of a document, each once and in its order, and
they tell what is so. -/
theorem ofForest_visible (f : Forest Head) (t : Toolbar) (o : Overrides)
    (term : Option String) :
    let rows := ofForest f t o term
    let word := term.getD t.effectiveTerm
    (∀ path, (∃ r ∈ rows, r.path = path) ↔ f.IsVisible t o word path) ∧
      (∀ path, f.IsVisible t o word path → (rows.map (·.path)).count path = 1) ∧
      (rows.map (·.path)).Pairwise (List.Lex (· < ·)) ∧
      (∀ r ∈ rows, ∃ n, f.at? r.path = some n ∧
        r.depth + 1 = r.path.length ∧
        r.hasChildren = n.hasChildren ∧
        (r.isOpen = true ↔ f.IsOpenAt t o word r.path) ∧
        (r.isMatch = true ↔ r.path ∈ f.matchPaths word)) ∧
      ((∀ path n, f.at? path = some n → n.hasChildren = true → f.IsOpenAt t o word path) →
        rows.map (fun r => f.at? r.path) = (f.toList.flatMap Tree.walk).map some) := by
  intro rows word
  refine ⟨?_, ?_, pairwise_path_ofForest f t o term, ?_, map_at?_ofForest⟩
  · intro path
    rw [← mem_map_path_ofForest, List.mem_map]
  · intro path hv
    rw [(nodup_path_ofForest f t o term).count, if_pos (mem_map_path_ofForest.mpr hv)]
  · intro r hr
    obtain ⟨path, u, hu, _, rfl⟩ := mem_ofForest.mp hr
    have hopen := Forest.isOpen_ofTree_iff (t := t) (o := o) hu
    have hmatch := Forest.mem_matchPaths_iff_of_at? hu
    rw [Forest.markMatches, Forest.at?_markUp, Option.map_eq_some_iff] at hu
    obtain ⟨n, hn, rfl⟩ := hu
    have hne := Forest.ne_nil_of_at?_eq_some hn
    refine ⟨n, hn, ?_, ?_, hopen, hmatch.symm⟩
    · exact Nat.sub_add_cancel (List.length_pos_iff.mpr hne)
    · exact Forest.hasChildren_markTree _ n

/-- A node that was closed by hand keeps its row and hides what is below it. With all nodes open
the rows are the whole document. -/
theorem ofForest_visible_folded :
    let field (name : String) (below rest : Forest Head) : Forest Head :=
      .cons { kind := .field, name } below rest
    let forest : Forest Head := .cons { kind := .operation }
      (field "user" (field "name" .nil .nil) (field "pet" .nil .nil)) .nil
    let folded := ({} : Overrides).toggle {} [0, 0]
    forest.IsVisible {} folded "" [0, 1] ∧ ¬ forest.IsVisible {} folded "" [0, 0, 0] ∧
      ((ofForest forest {} folded none).map (·.path)).count [0, 1] = 1 ∧
      (ofForest forest {} {} none).map (fun r => forest.at? r.path) =
        (forest.toList.flatMap Tree.walk).map some := by
  intro field forest folded
  obtain ⟨hpaths, honce, -, -, -⟩ := ofForest_visible forest {} folded none
  obtain ⟨-, -, -, -, hwalk⟩ := ofForest_visible forest {} {} none
  have hvisible : forest.IsVisible {} folded "" [0, 1] := (hpaths [0, 1]).mp (by decide +kernel)
  refine ⟨hvisible, ?_, honce [0, 1] hvisible, hwalk fun path n hn hc => ?_⟩
  · intro hbelow
    have hrow : ∃ r ∈ ofForest forest {} folded none, r.path = [0, 0, 0] :=
      (hpaths [0, 0, 0]).mpr hbelow
    revert hrow
    decide +kernel
  · exact ⟨n, hn, hc, .inr rfl⟩

end Row

end QueryOutline
