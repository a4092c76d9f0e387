import QueryOutline.Proofs.Outline.Visible

/-!
Opening and closing one node. The rows of a forest depend on what is open only where a
visible node is asked whether it is. So when a single node is opened or closed, the rows
before it and after what is below it stay, and all that changes is its own row and whether the
rows below it are there.
-/

namespace QueryOutline

namespace Path

variable {above p q : Path} {i j : Nat}

/-- Paths that part ways do not meet again. -/
theorem not_prefix_of_ne (hp : above ++ [i] <+: p) (hq : above ++ [j] <+: q) (hne : i ≠ j) :
    ¬ p <+: q := by
  intro h
  have hpq : above ++ [i] <+: above ++ [j] :=
    List.prefix_of_prefix_length_le (hp.trans h) hq (by simp)
  have heq : above ++ [i] = above ++ [j] := hpq.eq_of_length (by simp)
  exact hne (by simpa using heq)

theorem ne_of_not_prefix (h : ¬ p <+: q) : q ≠ p := by
  rintro rfl
  exact h (List.prefix_refl q)

end Path

/-- What comes before the brace does not tell whether a node is open. -/
theorem Head.exists_header_eq (h : Head) (isDefinition : Bool) (term : String) :
    ∃ front, ∀ isOpen, h.header isDefinition true isOpen term =
      front ++ [Header.mark (if isOpen then "\x7b" else "\x7b ... \x7d")] := by
  refine ⟨Header.title h isDefinition term ++
    Header.parenthesized (h.variableDefinitions.map (Header.variableDefinition term)) ++
    Header.parenthesized (h.arguments.map (Header.argument term)) ++
    h.directives.flatMap Header.directive ++ [Header.blank], fun isOpen => ?_⟩
  rw [header, List.append_assoc _ [Header.blank]]
  rfl

namespace Row

variable {openAt other : Path → Bool} {term : String} {above path : Path} {index : Nat}

/-! What rows depend on. -/

/-- Only a node that has children and does not match is asked whether it is open. -/
theorem ofTree_congr {u : Tree (Head × Bool)}
    (h : u.hasChildren = true → u.root.2 = false → other path = openAt path) :
    ofTree other term path u = ofTree openAt term path u := by
  have hopen : (u.hasChildren && (u.root.2 || other path)) =
      (u.hasChildren && (u.root.2 || openAt path)) := by
    cases hc : u.hasChildren with
    | false => rfl
    | true =>
        cases hm : u.root.2 with
        | true => rfl
        | false => rw [h hc hm]
  simp only [ofTree, hopen]

theorem emit_congr {f : Forest (Head × Bool)}
    (h : ∀ path u, f.at? path = some u → AboveOpen openAt term above index f path →
      ofTree other term (path.moved above index) u =
        ofTree openAt term (path.moved above index) u) :
    emit other term above index f = emit openAt term above index f := by
  induction f generalizing above index with
  | nil => rfl
  | cons a below rest ihb ihr =>
      have hroot := h [0] ⟨a, below⟩ rfl (aboveOpen_first a below rest)
      have hrest : emit other term above (index + 1) rest =
          emit openAt term above (index + 1) rest := by
        apply ihr
        intro path u hu ha
        cases path with
        | nil => simp at hu
        | cons i path =>
            rw [← Path.moved_rest]
            exact h ((i + 1) :: path) u hu (aboveOpen_rest.mpr ha)
      rw [Path.moved_first] at hroot
      rw [emit_cons, emit_cons, hroot, hrest]
      split
      · next hopen =>
          have hbelow : emit other term (above ++ [index]) 0 below =
              emit openAt term (above ++ [index]) 0 below := by
            apply ihb
            intro path u hu ha
            have hpath := Forest.ne_nil_of_at?_eq_some hu
            rw [← Path.moved_below]
            refine h (0 :: path) u ?_ ((aboveOpen_below hpath).mpr ⟨hopen, ha⟩)
            exact Forest.at?_cons_eq_some_iff.mpr (.inr (.inl ⟨path, rfl, hu⟩))
          rw [hbelow]
      · rfl

/-- A forest has only nodes below its place to ask about. -/
theorem emit_eq_of_below (f : Forest (Head × Bool))
    (h : ∀ i q, index ≤ i → above ++ [i] <+: q → other q = openAt q) :
    emit other term above index f = emit openAt term above index f := by
  apply emit_congr
  intro path u hu _
  cases path with
  | nil => simp at hu
  | cons i path =>
      refine ofTree_congr fun _ _ => h (index + i) _ (Nat.le_add_right index i) ?_
      exact ⟨path, by simp [Path.moved]⟩

/-! Rows of one tree. -/

def block (openAt : Path → Bool) (term : String) (path : Path) (u : Tree (Head × Bool)) :
    List Row :=
  ofTree openAt term path u ::
    if (ofTree openAt term path u).isOpen then emit openAt term path 0 u.below else []

theorem emit_cons_block (openAt : Path → Bool) (term : String) (above : Path) (index : Nat)
    (a : Head × Bool) (below rest : Forest (Head × Bool)) :
    emit openAt term above index (.cons a below rest) =
      block openAt term (above ++ [index]) ⟨a, below⟩ ++
        emit openAt term above (index + 1) rest := by
  rw [emit_cons]
  rfl

theorem prefix_of_mem_emit {f : Forest (Head × Bool)} {r : Row}
    (h : r ∈ emit openAt term above index f) : ∃ i, index ≤ i ∧ above ++ [i] <+: r.path := by
  obtain ⟨i, path, hp⟩ := exists_path_of_mem_emit h
  exact ⟨index + i, Nat.le_add_right index i, path, by simp [hp]⟩

theorem below_of_mem_emit {f : Forest (Head × Bool)} {r : Row}
    (h : r ∈ emit openAt term above index f) : above <+: r.path ∧ r.path ≠ above := by
  obtain ⟨i, path, hp⟩ := exists_path_of_mem_emit h
  exact ⟨⟨(index + i) :: path, hp.symm⟩, by simp [hp]⟩

theorem prefix_of_mem_block {u : Tree (Head × Bool)} {r : Row}
    (h : r ∈ block openAt term path u) : path <+: r.path := by
  rcases List.mem_cons.mp h with rfl | h
  · exact List.prefix_refl path
  · split at h
    · exact (below_of_mem_emit h).1
    · cases h

theorem block_eq_of_below (u : Tree (Head × Bool))
    (h : ∀ q, path <+: q → other q = openAt q) :
    block other term path u = block openAt term path u := by
  have hroot : ofTree other term path u = ofTree openAt term path u :=
    ofTree_congr fun _ _ => h path (List.prefix_refl path)
  have hbelow : emit other term path 0 u.below = emit openAt term path 0 u.below :=
    emit_eq_of_below u.below fun i q _ hq => h q ((List.prefix_append path [i]).trans hq)
  rw [block, block, hroot, hbelow]

/-! Rows around one tree. -/

section Around

variable {f : Forest (Head × Bool)} {p : Path} {r : Row}

theorem not_prefix_of_mem_rest (hp : above ++ [index] <+: p)
    (hr : r ∈ emit openAt term above (index + 1) f) : ¬ p <+: r.path := by
  obtain ⟨i, hi, hr⟩ := prefix_of_mem_emit hr
  exact Path.not_prefix_of_ne hp hr (Nat.ne_of_lt hi)

theorem emit_rest_eq (hp : above ++ [index] <+: p) (ho : ∀ q, q ≠ p → other q = openAt q) :
    emit other term above (index + 1) f = emit openAt term above (index + 1) f := by
  apply emit_eq_of_below
  intro i q hi hq
  exact ho q (Path.ne_of_not_prefix (Path.not_prefix_of_ne hp hq (Nat.ne_of_lt hi)))

/-- Rows that contain those of a part. However the node at the path is opened or closed, the
rows around the part are the same. -/
def SplitsAt (openAt : Path → Bool) (p : Path) (part whole : (Path → Bool) → List Row) : Prop :=
  ∃ lead rest, (∀ r ∈ lead ++ rest, ¬ p <+: r.path) ∧
    ∀ other : Path → Bool, (∀ q, q ≠ p → other q = openAt q) →
      whole other = lead ++ (part other ++ rest)

theorem SplitsAt.refl (openAt : Path → Bool) (p : Path) (part : (Path → Bool) → List Row) :
    SplitsAt openAt p part part :=
  ⟨[], [], by simp, by simp⟩

theorem SplitsAt.surround {part inner whole : (Path → Bool) → List Row}
    (h : SplitsAt openAt p part inner) (front back : List Row)
    (hfront : ∀ r ∈ front, ¬ p <+: r.path) (hback : ∀ r ∈ back, ¬ p <+: r.path)
    (heq : ∀ other : Path → Bool, (∀ q, q ≠ p → other q = openAt q) →
      whole other = front ++ (inner other ++ back)) :
    SplitsAt openAt p part whole := by
  obtain ⟨lead, rest, hout, hinner⟩ := h
  refine ⟨front ++ lead, rest ++ back, ?_, ?_⟩
  · intro r hr
    simp only [List.mem_append] at hr hout
    rcases hr with (hr | hr) | hr | hr
    · exact hfront r hr
    · exact hout r (.inl hr)
    · exact hout r (.inr hr)
    · exact hback r hr
  · intro other ho
    rw [heq other ho, hinner other ho]
    simp only [List.append_assoc]

/-- The part is the rows of a visible node. -/
theorem splitsAt_emit {u : Tree (Head × Bool)} (hu : f.at? path = some u)
    (ha : AboveOpen openAt term above index f path) :
    SplitsAt openAt (path.moved above index)
      (fun other => block other term (path.moved above index) u)
      (fun other => emit other term above index f) := by
  induction f generalizing above index path with
  | nil => simp [Forest.at?] at hu
  | cons a below rest ihb ihr =>
      rcases Forest.at?_cons_eq_some_iff.mp hu with ⟨rfl, rfl⟩ | ⟨q, rfl, hq⟩ | ⟨i, q, rfl, hq⟩
      -- the node is the first root
      · have hp : above ++ [index] <+: Path.moved [0] above index := List.prefix_refl _
        refine (SplitsAt.refl ..).surround [] (emit openAt term above (index + 1) rest) (by simp)
          (fun r => not_prefix_of_mem_rest hp) ?_
        intro other ho
        rw [emit_cons_block, emit_rest_eq hp ho]
        rfl
      -- the node is below the first root, which is open
      · have hnil := Forest.ne_nil_of_at?_eq_some hq
        obtain ⟨hopen, ha⟩ := (aboveOpen_below hnil).mp ha
        obtain ⟨hp, hne⟩ := Path.below_moved (above ++ [index]) 0 hnil
        rw [Path.moved_below]
        have hfront : ∀ r ∈ [ofTree openAt term (above ++ [index]) ⟨a, below⟩],
            ¬ Path.moved q (above ++ [index]) 0 <+: r.path := by
          intro r hr h
          obtain rfl := List.mem_singleton.mp hr
          exact hne (h.eq_of_length_le hp.length_le)
        refine (ihb hq ha).surround _ (emit openAt term above (index + 1) rest) hfront
          (fun r => not_prefix_of_mem_rest hp) ?_
        intro other ho
        have hroot : ofTree other term (above ++ [index]) ⟨a, below⟩ =
            ofTree openAt term (above ++ [index]) ⟨a, below⟩ :=
          ofTree_congr fun _ _ => ho _ hne.symm
        rw [emit_cons, hroot, if_pos hopen, emit_rest_eq hp ho]
        rfl
      -- the node is in another tree
      · rw [Path.moved_rest]
        have hp : above ++ [index + 1 + i] <+: Path.moved (i :: q) above (index + 1) :=
          ⟨q, by simp [Path.moved]⟩
        have hfirst {p : Path} (h : above ++ [index] <+: p) :
            ¬ Path.moved (i :: q) above (index + 1) <+: p :=
          Path.not_prefix_of_ne hp h (by omega)
        have hfront : ∀ r ∈ block openAt term (above ++ [index]) ⟨a, below⟩,
            ¬ Path.moved (i :: q) above (index + 1) <+: r.path :=
          fun r hr => hfirst (prefix_of_mem_block hr)
        refine (ihr hq (aboveOpen_rest.mp ha)).surround _ [] hfront (by simp) ?_
        intro other ho
        have hblock : block other term (above ++ [index]) ⟨a, below⟩ =
            block openAt term (above ++ [index]) ⟨a, below⟩ :=
          block_eq_of_below _ fun q hq => ho q (Path.ne_of_not_prefix (hfirst hq))
        rw [emit_cons_block, hblock, List.append_nil]

end Around

/-! Folding a node. -/

/-- The row with its node open or folded, given what comes before the brace. -/
def withState (r : Row) (front : List Segment) (isOpen : Bool) : Row :=
  { r with
    isOpen
    segments := front ++ [Header.mark (if isOpen then "\x7b" else "\x7b ... \x7d")] }

/-- What sets the rows with a node folded apart from those with it open: its own row by its
state, and the rows below it. -/
def Unfolds (path : Path) (folded unfolded : List Row) : Prop :=
  ∃ (r : Row) (front : List Segment) (lead below rest : List Row), r.path = path ∧
    folded = lead ++ r.withState front false :: rest ∧
    unfolded = lead ++ r.withState front true :: (below ++ rest) ∧
    below ≠ [] ∧ (∀ b ∈ below, path <+: b.path ∧ b.path ≠ path) ∧
    ∀ s ∈ lead ++ rest, ¬ path <+: s.path

theorem Unfolds.filter_eq {folded unfolded : List Row} (h : Unfolds path folded unfolded) :
    folded.filter (fun r => ¬ path <+: r.path) = unfolded.filter (fun r => ¬ path <+: r.path) := by
  obtain ⟨r, front, lead, below, rest, hr, rfl, rfl, -, hbelow, -⟩ := h
  have hrow (isOpen : Bool) : path <+: (r.withState front isOpen).path :=
    ⟨[], (List.append_nil path).trans hr.symm⟩
  have hnone : below.filter (fun r => ¬ path <+: r.path) = [] := by
    rw [List.filter_eq_nil_iff]
    intro b hb
    simpa using (hbelow b hb).1
  simp only [List.filter_append, List.filter_cons, hrow, hnone, not_true_eq_false, decide_false,
    Bool.false_eq_true, if_false, List.nil_append]

theorem exists_withState (term : String) (path : Path) {u : Tree (Head × Bool)}
    (hc : u.hasChildren = true) (hm : u.root.2 = false) : ∃ r front, r.path = path ∧
      ∀ openAt, ofTree openAt term path u = withState r front (openAt path) := by
  obtain ⟨front, hfront⟩ := u.root.1.exists_header_eq (path.length == 1) term
  refine ⟨ofTree (fun _ => false) term path u, front, rfl, fun openAt => ?_⟩
  simp only [ofTree, withState, hc, hm, Bool.true_and, Bool.false_or, hfront]

theorem emit_ne_nil {u : Tree (Head × Bool)} (hc : u.hasChildren = true) :
    emit openAt term above index u.below ≠ [] := by
  cases hb : u.below with
  | nil => simp [Tree.hasChildren, hb, Forest.isEmpty] at hc
  | cons a below rest =>
      rw [emit_cons]
      exact List.cons_ne_nil _ _

/-- A node that is asked whether it is open is folded or not as it says. -/
theorem unfolds_emit {f : Forest (Head × Bool)} {u : Tree (Head × Bool)} {shut wide : Path → Bool}
    (hu : f.at? path = some u) (ha : AboveOpen openAt term [] 0 f path)
    (hc : u.hasChildren = true) (hm : u.root.2 = false)
    (hs : ∀ q, q ≠ path → shut q = openAt q) (hw : ∀ q, q ≠ path → wide q = openAt q)
    (hshut : shut path = false) (hwide : wide path = true) :
    Unfolds path (emit shut term [] 0 f) (emit wide term [] 0 f) := by
  have hsplit := splitsAt_emit hu ha
  rw [Path.moved_nil_zero] at hsplit
  obtain ⟨lead, rest, hout, heq⟩ := hsplit
  dsimp only at heq
  obtain ⟨r, front, hr, hrow⟩ := exists_withState term path hc hm
  have hfolded : block shut term path u = [r.withState front false] := by
    rw [block, hrow, hshut]
    rfl
  have hunfolded : block wide term path u =
      r.withState front true :: emit wide term path 0 u.below := by
    rw [block, hrow, hwide]
    rfl
  refine ⟨r, front, lead, emit wide term path 0 u.below, rest, hr, ?_, ?_, emit_ne_nil hc, ?_, hout⟩
  · rw [heq shut hs, hfolded, List.singleton_append]
  · rw [heq wide hw, hunfolded, List.cons_append]
  · intro b hb
    exact below_of_mem_emit hb

end Row

/-! Toggles. -/

namespace Row

variable {f : Forest Head} {t : Toolbar} {o : Overrides} {term : Option String} {path : Path}

/-- A node that is not asked whether it is open can be toggled unnoticed. -/
theorem ofForest_toggle_eq
    (h : ∀ n, f.at? path = some n → n.hasChildren = true →
      f.IsVisible t o (term.getD t.effectiveTerm) path →
      path ∈ f.matchPaths (term.getD t.effectiveTerm)) :
    ofForest f t (o.toggle t path) term = ofForest f t o term := by
  apply emit_congr
  intro q u hu ha
  rw [Path.moved_nil_zero]
  refine ofTree_congr fun hc hm => o.isOpen_toggle_of_ne t ?_
  rintro rfl
  have hv := Forest.isVisible_iff.mpr ⟨u, hu, ha⟩
  have hmatch := Forest.mem_matchPaths_iff_of_at? hu
  rw [Forest.markMatches, Forest.at?_markUp, Option.map_eq_some_iff] at hu
  obtain ⟨n, hn, rfl⟩ := hu
  rw [Forest.hasChildren_markTree] at hc
  rw [hmatch.mp (h n hn hc hv)] at hm
  contradiction

theorem unfolds_toggle {n : Node} (hn : f.at? path = some n) (hc : n.hasChildren = true)
    (hv : f.IsVisible t o (term.getD t.effectiveTerm) path)
    (hm : path ∉ f.matchPaths (term.getD t.effectiveTerm)) :
    if o.isOpen t path then
      Unfolds path (ofForest f t (o.toggle t path) term) (ofForest f t o term)
    else Unfolds path (ofForest f t o term) (ofForest f t (o.toggle t path) term) := by
  obtain ⟨u, hu, ha⟩ := Forest.isVisible_iff.mp hv
  rw [Forest.mem_matchPaths_iff_of_at? hu, Bool.not_eq_true] at hm
  have hc : u.hasChildren = true := by
    rw [Forest.markMatches, Forest.at?_markUp, hn, Option.map_some, Option.some.injEq] at hu
    rw [← hu, Forest.hasChildren_markTree, hc]
  have hsame (q : Path) (_ : q ≠ path) : o.isOpen t q = o.isOpen t q := rfl
  have htoggled (q : Path) (hq : q ≠ path) : (o.toggle t path).isOpen t q = o.isOpen t q :=
    o.isOpen_toggle_of_ne t hq
  have hself : (o.toggle t path).isOpen t path = !o.isOpen t path := o.isOpen_toggle_self t path
  cases hopen : o.isOpen t path with
  | true =>
      rw [hopen] at hself
      exact unfolds_emit hu ha hc hm htoggled hsame hself hopen
  | false =>
      rw [hopen] at hself
      exact unfolds_emit hu ha hc hm hsame htoggled hopen hself

/-- Rows off the path of a toggle and overrides of other paths stay as they are. Nothing at all
changes when the node at the path is not there, is not visible, has no children or matches;
otherwise its own row opens or folds, and with it the rows below appear or go. -/
theorem toggle_local (f : Forest Head) (t : Toolbar) (o : Overrides) (term : Option String)
    (path : Path) :
    let before := ofForest f t o term
    let after := ofForest f t (o.toggle t path) term
    let word := term.getD t.effectiveTerm
    (before.filter (fun r => ¬ path <+: r.path) = after.filter (fun r => ¬ path <+: r.path)) ∧
      (∀ other, other ≠ path →
        ((o.toggle t path).reconcile t).get? other = (o.reconcile t).get? other) ∧
      (f.at? path = none ∨ path ∉ before.map (·.path) ∨
          (∃ n, f.at? path = some n ∧ n.hasChildren = false) ∨ path ∈ f.matchPaths word →
        after = before) ∧
      ∀ n, f.at? path = some n → path ∈ before.map (·.path) → n.hasChildren = true →
        path ∉ f.matchPaths word →
        if o.isOpen t path then Unfolds path after before else Unfolds path before after := by
  intro before after word
  have hrow : path ∈ before.map (·.path) ↔ f.IsVisible t o word path := mem_map_path_ofForest
  refine ⟨?_, fun other h => o.get?_toggle_of_ne t h, ?_, ?_⟩
  · by_cases hask : ∃ n, f.at? path = some n ∧ n.hasChildren = true ∧
        f.IsVisible t o word path ∧ path ∉ f.matchPaths word
    · obtain ⟨n, hn, hc, hv, hm⟩ := hask
      have hunfolds := unfolds_toggle hn hc hv hm
      split at hunfolds
      · exact hunfolds.filter_eq.symm
      · exact hunfolds.filter_eq
    · have heq : after = before := by
        apply ofForest_toggle_eq
        intro n hn hc hv
        exact Classical.byContradiction fun hm => hask ⟨n, hn, hc, hv, hm⟩
      rw [heq]
  · intro h
    apply ofForest_toggle_eq
    intro n hn hc hv
    rcases h with h | h | ⟨m, hm, hcm⟩ | h
    · rw [h] at hn
      contradiction
    · exact absurd (hrow.mpr hv) h
    · obtain rfl : n = m := Option.some.inj (hn.symm.trans hm)
      rw [hc] at hcm
      contradiction
    · exact h
  · intro n hn hv hc hm
    exact unfolds_toggle hn hc (hrow.mp hv) hm

/-- A field with another one below it, and a field with none. -/
theorem toggle_local_user :
    let field (name : String) (below rest : Forest Head) : Forest Head :=
      .cons { kind := .field, name } below rest
    let forest : Forest Head := .cons { kind := .operation }
      (field "user" (field "name" .nil .nil) (field "pet" .nil .nil)) .nil
    let after (path : Path) := ofForest forest {} (({} : Overrides).toggle {} path) none
    Unfolds [0, 0] (after [0, 0]) (ofForest forest {} {} none) ∧
      after [0, 1] = ofForest forest {} {} none := by
  intro field forest after
  obtain ⟨-, -, -, hfolded⟩ := toggle_local forest {} {} none [0, 0]
  obtain ⟨-, -, hsame, -⟩ := toggle_local forest {} {} none [0, 1]
  refine ⟨?_, hsame (.inr (.inr (.inl ⟨_, rfl, rfl⟩)))⟩
  exact hfolded _ rfl (by decide +kernel) rfl (by decide +kernel)

end Row

end QueryOutline
