import QueryOutline.Proofs.Outline.Located

/-!
What a search finds. A term occurs in a text that has it as one stretch, and a node is
found when the term occurs in a text of its own or of a node below it. So the nodes above
one that is found are found as well, and a longer term finds nothing else.
-/

namespace QueryOutline

theorem Text.isSome_splitAtFirst?_iff (term cs : List Char) :
    (splitAtFirst? term cs).isSome = true ↔ term <:+: cs := by
  induction cs with
  | nil => simp [splitAtFirst?, apply_ite Option.isSome]
  | cons c cs ih =>
      rw [List.infix_cons_iff, ← ih, ← List.isPrefixOf_iff_prefix, splitAtFirst?]
      cases term.isPrefixOf (c :: cs) <;> simp

/-- The search from left to right misses no occurrence. -/
theorem Text.occursIn_iff (term text : String) :
    occursIn term text = true ↔ term.toList <:+: text.toList :=
  isSome_splitAtFirst?_iff term.toList text.toList

theorem Head.matchesDirectly_iff (h : Head) (term : String) :
    h.matchesDirectly term = true ↔ ∃ s ∈ h.ownTexts, term.toList <:+: s.toList := by
  simp only [matchesDirectly, List.any_eq_true, Text.occursIn_iff]

namespace Forest

variable {α : Type}

theorem anyRoot_markUp (p : α → Bool) (f : Forest α) :
    (markUp p f).anyRoot (·.2) = f.preorder.any p := by
  induction f with
  | nil => rfl
  | cons a below rest ihb ihr => simp [markUp, anyRoot, preorder, ihb, ihr, Bool.or_assoc]

/-- A tree is marked for any of its nodes. -/
theorem root_markTree (p : α → Bool) (t : Tree α) :
    (markTree p t).root.2 = t.preorder.any p := by
  simp only [markTree, anyRoot_markUp, Tree.preorder, List.any_cons]

variable {f : Forest Head} {term : String} {path : Path}

/-- A path is on the way to a match, or at one. -/
theorem mem_matchPaths_iff_any : path ∈ f.matchPaths term ↔
    ∃ n, f.at? path = some n ∧ term ≠ "" ∧ ∃ h ∈ n.preorder, h.matchesDirectly term = true := by
  rw [mem_matchPaths, markMatches]
  constructor
  · rintro ⟨u, hu, hmark⟩
    rw [at?_markUp, Option.map_eq_some_iff] at hu
    obtain ⟨n, hn, rfl⟩ := hu
    rw [root_markTree, List.any_eq_true] at hmark
    obtain ⟨h, hh, hmatch⟩ := hmark
    rw [Bool.and_eq_true, bne_iff_ne] at hmatch
    exact ⟨n, hn, hmatch.1, h, hh, hmatch.2⟩
  · rintro ⟨n, hn, hterm, h, hh, hmatch⟩
    refine ⟨markTree _ n, by rw [at?_markUp, hn, Option.map_some], ?_⟩
    rw [root_markTree, List.any_eq_true]
    exact ⟨h, hh, by rw [hmatch, Bool.and_true, bne_iff_ne]; exact hterm⟩

theorem mem_matchPaths_iff_occurs (hterm : term ≠ "") : path ∈ f.matchPaths term ↔
    ∃ n, f.at? path = some n ∧
      ∃ h ∈ n.preorder, ∃ s ∈ h.ownTexts, term.toList <:+: s.toList := by
  simp only [mem_matchPaths_iff_any, hterm, ne_eq, not_false_iff, true_and,
    Head.matchesDirectly_iff]

theorem mem_matchPaths_above {q : Path} (hq : q <+: path) (hne : q ≠ [])
    (h : path ∈ f.matchPaths term) : q ∈ f.matchPaths term := by
  obtain ⟨n, hn, hterm, a, ha, hmatch⟩ := mem_matchPaths_iff_any.mp h
  have hsome : (f.at? q).isSome = true := isSome_at?_above hq hne (Option.isSome_of_eq_some hn)
  obtain ⟨m, hm⟩ := Option.isSome_iff_exists.mp hsome
  have hsub : n.preorder ⊆ m.preorder := preorder_subset_above hq hm hn
  exact mem_matchPaths_iff_any.mpr ⟨m, hm, hterm, a, hsub ha, hmatch⟩

/-- Where a term occurs, so does every part of it. -/
theorem matchPaths_subset_of_longer {longer : String} (hterm : term ≠ "")
    (h : term.toList <:+: longer.toList) : f.matchPaths longer ⊆ f.matchPaths term := by
  intro path hpath
  obtain ⟨n, hn, _, a, ha, hmatch⟩ := mem_matchPaths_iff_any.mp hpath
  rw [Head.matchesDirectly_iff] at hmatch
  obtain ⟨s, hs, hin⟩ := hmatch
  exact (mem_matchPaths_iff_occurs hterm).mpr ⟨n, hn, a, ha, s, hs, h.trans hin⟩

theorem matchPaths_empty (f : Forest Head) : f.matchPaths "" = [] := by
  apply List.eq_nil_iff_forall_not_mem.mpr
  intro path h
  obtain ⟨n, _, hterm, _⟩ := mem_matchPaths_iff_any.mp h
  exact hterm rfl

/-- A search finds the nodes that have the term in a text of their own or of a node below
them. What it finds has all nodes above it found as well, a longer term finds nothing else,
and without a term nothing is found. -/
theorem matchPaths_ancestorClosure (f : Forest Head) (term : String) :
    (term ≠ "" → ∀ path, path ∈ f.matchPaths term ↔
      ∃ n, f.at? path = some n ∧
        ∃ h ∈ n.preorder, ∃ s ∈ h.ownTexts, term.toList <:+: s.toList) ∧
      (∀ path ∈ f.matchPaths term, ∀ q, q <+: path → q ≠ [] → q ∈ f.matchPaths term) ∧
      (∀ longer : String, term ≠ "" → term.toList <:+: longer.toList →
        f.matchPaths longer ⊆ f.matchPaths term) ∧
      f.matchPaths "" = [] := by
  refine ⟨fun hterm _ => mem_matchPaths_iff_occurs hterm, ?_, ?_, matchPaths_empty f⟩
  · intro path hpath q hq hne
    exact mem_matchPaths_above hq hne hpath
  · intro longer hterm h
    exact matchPaths_subset_of_longer hterm h

theorem matchPaths_ancestorClosure_name :
    let field (name : String) (below rest : Forest Head) : Forest Head :=
      .cons { kind := .field, name } below rest
    let forest : Forest Head := .cons { kind := .operation }
      (field "user" (field "name" .nil .nil) (field "pet" .nil .nil)) .nil
    [0, 0, 0] ∈ forest.matchPaths "name" ∧ [0, 0] ∈ forest.matchPaths "name" ∧
      forest.matchPaths "name" ⊆ forest.matchPaths "am" := by
  intro field forest
  obtain ⟨hiff, hclosure, -, -⟩ := forest.matchPaths_ancestorClosure "name"
  obtain ⟨-, -, hlonger, -⟩ := forest.matchPaths_ancestorClosure "am"
  have hname : [0, 0, 0] ∈ forest.matchPaths "name" :=
    (hiff (by decide) [0, 0, 0]).mpr ⟨_, rfl, _, .head _, "name", by decide, List.infix_rfl⟩
  exact ⟨hname, hclosure _ hname [0, 0] (by decide) (by decide),
    hlonger "name" (by decide) ⟨['n'], ['e'], by decide⟩⟩

end Forest

end QueryOutline
