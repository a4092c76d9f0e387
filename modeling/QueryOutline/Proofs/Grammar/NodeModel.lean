import QueryOutline.Proofs.Grammar.Heads
import QueryOutline.Proofs.Node.Filled
import QueryOutline.Proofs.Outline.Located

/-!
The node model. Of the attributes that a node can have, those of a parsed document have the
ones that belong to their kind. Definitions are the roots and nothing else, a fragment below
a root is a spread and ends there, and selection sets are nested to a limit. No token list
is too malformed for this.
-/

namespace QueryOutline

/-- What a node of each kind has. Among fragments the definitions are the roots. -/
def Head.Fits (h : Head) (isRoot hasChildren : Bool) : Prop :=
  match h.kind with
  | .operation =>
      isRoot = true ∧ h.operationType.isSome = true ∧ h.aliasName = none ∧
        h.typeCondition = none ∧ h.arguments = [] ∧ h.directives = []
  | .field =>
      isRoot = false ∧ h.name.isSome = true ∧ h.operationType = none ∧
        h.typeCondition = none ∧ h.variableDefinitions = []
  | .fragment =>
      h.name.isSome = true ∧ h.operationType = none ∧ h.aliasName = none ∧
        h.arguments = [] ∧ h.directives = [] ∧ h.variableDefinitions = [] ∧
        (isRoot = false → h.typeCondition = none ∧ hasChildren = false)
  | .inlineFragment =>
      isRoot = false ∧ h.name = none ∧ h.operationType = none ∧ h.aliasName = none ∧
        h.arguments = [] ∧ h.directives = [] ∧ h.variableDefinitions = []

namespace Forest

/-- The nodes obey the node model, on at most the given number of levels. -/
def Obeys : (isRoot : Bool) → (levels : Nat) → Forest Head → Prop
  | _, _, nil => True
  | _, 0, cons .. => False
  | isRoot, levels + 1, cons h below rest =>
      h.Fits isRoot (!below.isEmpty) ∧ below.Obeys false levels ∧
        rest.Obeys isRoot (levels + 1)

variable {isRoot : Bool} {levels : Nat}

theorem Obeys.nil : (Forest.nil : Forest Head).Obeys isRoot levels := by
  simp [Obeys]

/-- The roots of a forest take one of its levels. -/
theorem obeys_ofList {ns : List Node} (h : ∀ n ∈ ns, n.root.Fits isRoot n.hasChildren ∧
    n.below.Obeys false levels) : (ofList ns).Obeys isRoot (levels + 1) := by
  induction ns with
  | nil => exact .nil
  | cons n ns ih =>
      obtain ⟨⟨hfits, hbelow⟩, hrest⟩ := List.forall_mem_cons.mp h
      exact ⟨hfits, hbelow, ih hrest⟩

/-- A path is as long as its node is deep. -/
theorem Obeys.of_at? {f : Forest Head} {path : Path} {n : Node} (h : f.Obeys isRoot levels)
    (hn : f.at? path = some n) :
    n.root.Fits (isRoot && path.length == 1) n.hasChildren ∧ path.length ≤ levels := by
  induction f generalizing isRoot levels path with
  | nil => simp [at?] at hn
  | cons head below rest ihb ihr =>
      cases levels with
      | zero => simp [Obeys] at h
      | succ levels =>
          obtain ⟨hfits, hbelow, hrest⟩ := h
          rcases at?_cons_eq_some_iff.mp hn with ⟨rfl, rfl⟩ | ⟨q, rfl, hq⟩ | ⟨i, q, rfl, hq⟩
          -- the root itself, a node below it, a node of another tree
          · simpa [Tree.hasChildren] using hfits
          · obtain ⟨hfits, hlength⟩ := ihb hbelow hq
            have hdeeper : (q.length + 1 == 1) = false := by
              simpa using ne_nil_of_at?_eq_some hq
            rw [List.length_cons, hdeeper, Bool.and_false]
            exact ⟨by simpa using hfits, Nat.succ_le_succ hlength⟩
          · have hbehind := ihr hrest hq
            exact hbehind

end Forest

namespace Rule

variable {α β : Type} {r x : Rule α} {f : α → Rule β} {a : α} {P : α → Prop} {Q : β → Prop}

/-- Whatever the tokens are, the rule finds something that satisfies the condition. -/
def Yields (P : α → Prop) (r : Rule α) : Prop :=
  ∀ ts, P (r.read ts).result

theorem Yields.pure (h : P a) : Yields P (pure a) :=
  fun _ => h

/-- The second rule relies on what the first one finds. -/
theorem Yields.bind (hx : Yields P x) (hf : ∀ a, P a → Yields Q (f a)) : Yields Q (x >>= f) :=
  fun ts => hf _ (hx ts) _

theorem Yields.after (hf : ∀ a, Yields Q (f a)) : Yields Q (x >>= f) :=
  fun _ => hf _ _

theorem Yields.map {g : α → β} (h : Yields (fun a => Q (g a)) r) : Yields Q (g <$> r) :=
  h

theorem Yields.ite {c : Prop} [Decidable c] {x y : Rule α} (hx : Yields P x) (hy : Yields P y) :
    Yields P (if c then x else y) := by
  split
  · exact hx
  · exact hy

theorem yields_manyUntil {closing : Token} {item : Token → Rule (Option α)}
    (hi : ∀ t, Yields (fun a? => ∀ a ∈ a?, P a) (item t)) :
    Yields (fun found => ∀ a ∈ found, P a) (manyUntil closing item) := by
  intro ts
  rw [read_manyUntil]
  fun_induction readUntil closing item ts with
  | case1 => simp
  | case2 => simp
  | case3 t ts _ found others ih =>
      refine List.forall_mem_append.mpr ⟨?_, ih⟩
      simpa using hi t ts

/-! Heads. -/

/-- Behind heads that ask for a selection set there can be children. -/
def FitsBelow (isRoot : Bool) (found : Head × Bool) : Prop :=
  ∀ hasChildren, (hasChildren = true → found.2 = true) → found.1.Fits isRoot hasChildren

theorem yields_fieldHead (first : Option Token) :
    Yields (fun h => FitsBelow false (h, true)) (fieldHead first) := by
  intro ts hasChildren _
  rw [fieldHead, read_bind]
  cases ((skip ":").read ts).result <;> simp [Head.Fits]

theorem yields_inlineFragmentHead :
    Yields (fun h => FitsBelow false (h, true)) inlineFragmentHead :=
  .after fun _ => .pure fun _ _ => by simp [Head.Fits]

/-- A spread has a name and nothing below it. -/
theorem fitsBelow_spread (name : String) :
    FitsBelow false ({ kind := .fragment, name := some name }, false) := by
  intro hasChildren h
  simpa [Head.Fits] using h

theorem yields_spreadHead (attached : String) :
    Yields (FitsBelow false) (spreadHead attached) := by
  refine .ite (.map yields_inlineFragmentHead) (.ite (.pure (fitsBelow_spread _)) ?_)
  refine .after fun _ => .ite (.map yields_inlineFragmentHead) (.after fun _ => .ite ?_ ?_)
  · exact .pure fun _ _ => by simp [Head.Fits]
  · exact .after fun _ => .pure (fitsBelow_spread _)

theorem yields_selectionHead (first : Token) :
    Yields (FitsBelow false) (selectionHead first) := by
  unfold selectionHead
  split
  · exact yields_spreadHead _
  · exact .map (yields_fieldHead _)

/-- Only definitions are roots, and they always ask for a selection set. -/
theorem yields_definitionHead? {first : Token} {head : Rule Head}
    (h : definitionHead? first = some head) :
    Yields (fun h => FitsBelow true (h, true)) head := by
  rw [definitionHead?] at h
  split at h
  · obtain rfl := Option.some.inj h
    exact .after fun _ => .after fun _ => .after fun _ => .pure fun _ _ => by simp [Head.Fits]
  · obtain ⟨type, -, rfl⟩ := Option.map_eq_some_iff.mp h
    exact .after fun _ => .after fun _ => .pure fun _ _ => by simp [Head.Fits]

/-! Selections and definitions. -/

/-- The node is in its place there, and so are those below it. -/
def Placed (isRoot : Bool) (levels : Nat) (n : Node) : Prop :=
  n.root.Fits isRoot n.hasChildren ∧ n.below.Obeys false levels

section Selections

variable {selections : Rule (Forest Head)} {isRoot : Bool} {levels : Nat}

theorem Yields.selectionSet (h : Yields (Forest.Obeys false levels) selections) :
    Yields (Forest.Obeys false levels) (selectionSet selections) :=
  .after fun _ => .ite h (.pure .nil)

/-- A head that asks for no selection set stays without children. -/
theorem Yields.withBelow {head : Rule (Head × Bool)} (hh : Yields (FitsBelow isRoot) head)
    (h : Yields (Forest.Obeys false levels) selections) :
    Yields (Placed isRoot levels) (withBelow selections head) := by
  refine hh.bind fun found hfound => ?_
  obtain ⟨root, asks⟩ := found
  cases asks with
  | true =>
      refine Yields.bind (x := Rule.selectionSet selections) h.selectionSet fun below hbelow => ?_
      exact .pure ⟨hfound _ fun _ => rfl, hbelow⟩
  | false =>
      intro ts
      exact ⟨hfound _ (by simp [Tree.hasChildren, Forest.isEmpty]), .nil⟩

theorem Yields.selection (h : Yields (Forest.Obeys false levels) selections) (first : Token) :
    Yields (Placed false levels) (selection selections first) := by
  rw [selection_eq]
  exact (yields_selectionHead first).withBelow h

end Selections

/-- By induction on the levels: where none is left a block is skipped and gives no nodes. -/
theorem yields_selections (levels : Nat) :
    Yields (Forest.Obeys false levels) (selections levels) := by
  induction levels with
  | zero => exact .after fun _ => .pure .nil
  -- every selection of this level has its own selections one level further down
  | succ levels ih =>
      have hmany : Yields (fun found => ∀ n ∈ found, Placed false levels n)
          (manyUntil "\x7d" fun first => some <$> Rule.selection (selections levels) first) :=
        yields_manyUntil fun first => .map (by simpa using ih.selection first)
      exact hmany.bind fun found hfound => .pure (Forest.obeys_ofList hfound)

theorem yields_definition? {t : Token} {rule : Rule Node} (h : definition? t = some rule) :
    Yields (Placed true maxNestingDepth) rule := by
  have hbelow := yields_selections maxNestingDepth
  by_cases ht : t = "\x7b"
  · subst ht
    obtain rfl : bareQuery = rule := Option.some.inj h
    exact hbelow.bind fun _ hobeys => .pure ⟨by simp [Head.Fits], hobeys⟩
  · rw [definition?_of_ne ht, Option.map_eq_some_iff] at h
    obtain ⟨head, hhead, rfl⟩ := h
    exact Yields.withBelow (.map (yields_definitionHead? hhead)) hbelow

end Rule

/-- Definitions stand on the one level above all selections. -/
theorem Definitions.obeys_readFrom (position : Nat) (ts : List Token) :
    (readFrom position ts).forest.Obeys true (maxNestingDepth + 1) := by
  fun_induction readFrom position ts with
  | case1 => exact .nil
  | case2 position t ts _ others ih => exact ih
  | case3 position t ts rule hd found others ih =>
      obtain ⟨hfits, hbelow⟩ := Rule.yields_definition? hd ts
      exact ⟨hfits, hbelow, ih⟩

/-- Every node of a document has what its kind and its place allow, down to the deepest level
there is, and what is written of it has no empty list. -/
theorem forest_parseDefinitions_obeys (ts : List Token) :
    (∀ path n, (parseDefinitions ts).forest.at? path = some n →
      n.root.Fits (path.length == 1) n.hasChildren ∧ path.length ≤ maxNestingDepth + 1) ∧
      ∀ j ∈ (parseDefinitions ts).forest.toJson, j.Filled := by
  refine ⟨fun path n hn => ?_, Forest.filled_toJson _⟩
  exact (Definitions.obeys_readFrom 0 ts).of_at? hn

theorem forest_parseDefinitions_obeys_alias :
    let forest := (parseDefinitions ["\x7b", "first", ":", "user", "\x7d"]).forest
    ∃ n, forest.at? [0, 0] = some n ∧ n.root.Fits false n.hasChildren ∧
      ∀ j ∈ forest.toJson, j.Filled := by
  intro forest
  obtain ⟨hnodes, hfilled⟩ :=
    forest_parseDefinitions_obeys ["\x7b", "first", ":", "user", "\x7d"]
  obtain ⟨n, hn⟩ : ∃ n, forest.at? [0, 0] = some n :=
    Option.isSome_iff_exists.mp (by decide +kernel)
  exact ⟨n, hn, (hnodes [0, 0] n hn).1, hfilled⟩

end QueryOutline
