import QueryOutline.Document
import QueryOutline.Proofs.Display.Printout
import QueryOutline.Proofs.Written.Complete

/-!
Printing a written document. The headers and the closing braces of its nodes spell the
tokens of a document again. It is the written one but for a choice that the nodes do not
tell: a bare query gets its keyword, a name stands directly behind the dots of a spread,
and a type condition apart from those of an inline fragment. So the printout of a document
that is nowhere nested too deep is read back as the same nodes.
-/

namespace QueryOutline

open Token Segment

namespace Written

/-! The document that a printout spells. -/

def Opening.normal : Opening → Opening
  | .bare => .bare
  | .apart type | .attached type => .apart type

mutual

def Selection.normal : Selection → Selection
  | .leaf field => .leaf field
  | .field field block => .field field block.normal
  | .spread _ name ne_on => .spread true name ne_on
  | .inlineFragment opening block => .inlineFragment opening.normal block.normal

def Block.normal : Block → Block
  | .last selection => .last selection.normal
  | .cons first others => .cons first.normal others.normal

end

def Definition.normal : Definition → Definition
  | .operation type name variableDefinitions block =>
      .operation type name variableDefinitions block.normal
  | .bare block => .operation .query none [] block.normal
  | .fragment name type block => .fragment name type block.normal

/-- Whether a type is attached to the word before it is not seen in the head. -/
theorem Opening.head_normal (o : Opening) : o.normal.head = o.head := by
  cases o <;> rfl

mutual

theorem Selection.node_normal (s : Selection) (levels : Nat) :
    s.normal.node levels = s.node levels := by
  cases s with
  | leaf f => rfl
  | field f b => simp only [Selection.normal, Selection.node, b.nodes_normal]
  | spread isAttached n hn => rfl
  | inlineFragment o b =>
      simp only [Selection.normal, Selection.node, b.nodes_normal, o.head_normal]

theorem Block.nodes_normal (b : Block) (levels : Nat) : b.normal.nodes levels = b.nodes levels := by
  cases b with
  | last s => rw [Block.normal, Block.nodes, Block.nodes, s.node_normal]
  | cons s b =>
      rw [Block.normal, Block.nodes, Block.nodes, s.node_normal, b.nodes_normal]

end

/-- A definition and its normal form stand for the same node. -/
theorem Definition.node_normal (d : Definition) : d.normal.node = d.node := by
  have hb (b : Block) : b.normal.forest = b.forest := by
    funext levels
    simp only [Block.forest, funext b.nodes_normal]
  cases d with
  | operation type name vs b => simp only [normal, node, hb]
  | bare b =>
      simp only [normal, node, hb]
      rfl
  | fragment name type b => simp only [normal, node, hb]

/-! How deep selection sets are nested. -/

mutual

def Selection.depth : Selection → Nat
  | .leaf _ | .spread .. => 0
  | .field _ block | .inlineFragment _ block => block.depth

/-- The selection set itself is counted. -/
def Block.depth : Block → Nat
  | .last selection => selection.depth + 1
  | .cons first others => max (first.depth + 1) others.depth

end

def Definition.depth : Definition → Nat
  | .operation _ _ _ block | .bare block | .fragment _ _ block => block.depth

theorem Block.depth_pos (b : Block) : 0 < b.depth := by
  cases b with
  | last s => exact Nat.succ_pos _
  | cons s b => exact Nat.lt_of_lt_of_le (Nat.succ_pos _) (Nat.le_max_left ..)

/-! Headers. -/

variable {term : String} {isTop : Bool}

theorem parenthesized_nil {α : Type} (spell : α → List Token) : parenthesized spell [] = [] := rfl

/-- Between two entries a comma and a blank are printed, which is a gap. -/
theorem spells_entries {α : Type} {segments : α → List Segment} {tokens : α → List Token}
    (h : ∀ a, Spells (chars (segments a)) (tokens a)) (a : α) (as : List α) :
    Spells (chars (((a :: as).map segments).intersperse [Header.mark ", "]).flatten)
      ((a :: as).flatMap tokens) := by
  induction as generalizing a with
  | nil => simpa using h a
  | cons b as ih =>
      have hgap : IsGap ", " := by simp [IsGap, isSeparator, Text.isBlank]
      have hnext := (h a).behind (.gap hgap (by decide) (ih b))
      simpa [Header.mark] using hnext

/-- A parenthesis may follow a word directly. -/
theorem spellsBehind_parenthesized {α : Type} {segments : α → List Segment}
    {tokens : α → List Token} (h : ∀ a, Spells (chars (segments a)) (tokens a)) (as : List α) :
    SpellsBehind (chars (Header.parenthesized (as.map segments))) (parenthesized tokens as) := by
  cases as with
  | nil => exact .nil
  | cons a as =>
      have hopening : IsMark "(" := isMark_of_mem (by decide)
      have hclosing : IsMark ")" := isMark_of_mem (by decide)
      have hentries := (spells_entries h a as).behind hclosing.spellsBehind
      have hall := SpellsBehind.mark hopening hentries
      simpa [Header.parenthesized, Header.mark, parenthesized] using hall

theorem Argument.spells (a : Argument) :
    Spells (chars (Header.argument term a.node)) a.tokens := by
  simp only [Header.argument, chars_append, chars_cons, chars_highlight]
  exact .token a.name.isComplete (.colon a.value.spells)

theorem Scalar.spellsBehind_default (d? : Option Scalar) :
    SpellsBehind
      (chars (match d?.map Scalar.text with
        | some d => [Header.mark " = ", { text := d, role := .value }]
        | none => []))
      (match d? with
        | some d => ["=", d.text]
        | none => []) := by
  cases d? with
  | none => exact .nil
  | some d =>
      have hequals : IsComplete "=" := Scalar.isComplete ⟨"=", by decide⟩
      have hd : SpellsBehind (" ".toList ++ d.text.toList) [d.text] :=
        .gap isGap_blank (by decide) d.isComplete.spells
      have h := SpellsBehind.gap isGap_blank (by decide) (Spells.token hequals hd)
      simpa [Header.mark] using h

theorem VariableDefinition.spells (v : VariableDefinition) :
    Spells (chars (Header.variableDefinition term v.node)) v.tokens := by
  have hdollar : IsMark "$" := isMark_of_mem (by decide)
  have htype := v.type.spells.behind (Scalar.spellsBehind_default v.defaultValue)
  have hall := SpellsBehind.mark hdollar (.token v.name.isComplete (.colon htype))
  simp only [Header.variableDefinition, chars_append, chars_cons, chars_highlight,
    List.append_assoc]
  exact hall.toSpells

theorem Directive.spellsBehind (d : Directive) :
    SpellsBehind (chars (Header.directive d.node)) d.tokens := by
  have hat : IsMark "@" := isMark_of_mem (by decide)
  have hargument (a : Argument) : Spells (chars [{ text := a.name.text, role := .argument },
      Header.mark ": ", { text := joinValue a.value.tokens, role := .value }]) a.tokens := by
    have h : Spells _ a.tokens := .token a.name.isComplete (.colon a.value.spells)
    simpa [Header.mark] using h
  have hentries := spellsBehind_parenthesized hargument d.arguments
  have hname := SpellsBehind.mark hat (.token d.name.isComplete hentries)
  have hall := SpellsBehind.gap isGap_blank (by decide) hname.toSpells
  simpa [Header.directive, Directive.node, Directive.tokens, Argument.node, Function.comp_def,
    Header.blank, Header.mark] using hall

theorem spellsBehind_directives (ds : List Directive) :
    SpellsBehind (chars ((ds.map Directive.node).flatMap Header.directive))
      (ds.flatMap Directive.tokens) := by
  induction ds with
  | nil => exact .nil
  | cons d ds ih =>
      rw [List.map_cons, List.flatMap_cons, chars_append, List.flatMap_cons]
      exact d.spellsBehind.behind ih

theorem spellsBehind_brace (hasChildren : Bool) :
    SpellsBehind (chars (Header.brace hasChildren hasChildren))
      (if hasChildren then ["\x7b"] else []) := by
  cases hasChildren with
  | false => exact .nil
  | true =>
      have hbrace : IsMark "\x7b" := isMark_of_mem (by decide)
      have h := SpellsBehind.gap isGap_blank (by decide) hbrace.spellsBehind.toSpells
      simpa [Header.brace, Header.blank, Header.mark] using h

/-- A header spells what identifies the node and then its other attributes. -/
theorem spells_header {h : Head} {ts : List Token} (vs : List VariableDefinition)
    (as : List Argument) (ds : List Directive) (hasChildren : Bool)
    (htitle : Spells (chars (Header.title h isTop term)) ts)
    (hvs : h.variableDefinitions = vs.map VariableDefinition.node)
    (has : h.arguments = as.map Argument.node) (hds : h.directives = ds.map Directive.node) :
    Spells (chars (h.header isTop hasChildren hasChildren term))
      (ts ++ parenthesized VariableDefinition.tokens vs ++ parenthesized Argument.tokens as ++
        ds.flatMap Directive.tokens ++ if hasChildren then ["\x7b"] else []) := by
  have hvariables : SpellsBehind
      (chars (Header.parenthesized (vs.map fun v => Header.variableDefinition term v.node)))
      (parenthesized VariableDefinition.tokens vs) :=
    spellsBehind_parenthesized (fun v => v.spells) vs
  have harguments : SpellsBehind
      (chars (Header.parenthesized (as.map fun a => Header.argument term a.node)))
      (parenthesized Argument.tokens as) :=
    spellsBehind_parenthesized (fun a => a.spells) as
  rw [Head.header, hvs, has, hds, List.map_map, List.map_map]
  simp only [chars_append]
  exact (((htitle.behind hvariables).behind harguments).behind
    (spellsBehind_directives ds)).behind (spellsBehind_brace hasChildren)

/-! Forests. -/

variable {h : Head} {below rest : Forest Head} {ts us vs : List Token}

theorem spells_line {cs ds : List Char} (hcs : Spells cs ts) (hds : Spells ds us) :
    Spells (cs ++ '\n' :: ds) (ts ++ us) := by
  have hgap : IsGap "\n" := by simp [IsGap, isSeparator, Text.isBlank]
  have hbehind : SpellsBehind ("\n".toList ++ ds) us := .gap hgap (by decide) hds
  simpa using hcs.behind hbehind

theorem spells_printout_leaf (hh : Spells (chars (h.header isTop false false term)) ts)
    (hrest : Spells (rest.printout term isTop) us) :
    Spells ((Forest.cons h .nil rest).printout term isTop) (ts ++ us) :=
  spells_line hh hrest

/-- What stands below a node is enclosed in braces. -/
theorem spells_printout_cons (hbelow : below.isEmpty = false)
    (hh : Spells (chars (h.header isTop true true term)) (ts ++ ["\x7b"]))
    (hb : Spells (below.printout term false) us) (hrest : Spells (rest.printout term isTop) vs) :
    Spells ((Forest.cons h below rest).printout term isTop)
      (ts ++ "\x7b" :: (us ++ "\x7d" :: vs)) := by
  have hclosing : IsMark "\x7d" := isMark_of_mem (by decide)
  have hinside := hb.behind (SpellsBehind.mark hclosing (spells_line .nil hrest))
  have hall := spells_line hh hinside
  simpa [Forest.printout, hbelow] using hall

theorem Field.spells_header (f : Field) (hasChildren : Bool) :
    Spells (chars (f.head.header false hasChildren hasChildren term))
      (f.tokens ++ if hasChildren then ["\x7b"] else []) := by
  obtain ⟨aliasName, name, args, ds⟩ := f
  have htitle : Spells (chars (Header.title (Field.head ⟨aliasName, name, args, ds⟩) false term))
      (Field.label ⟨aliasName, name, args, ds⟩) := by
    cases aliasName with
    | none =>
        simpa [Header.title, Field.head, Field.label] using name.isComplete.spells
    | some a =>
        have h := Spells.token a.isComplete (.colon name.isComplete.spells)
        simpa [Header.title, Field.head, Field.label, Header.mark] using h
  have hall := Written.spells_header [] args ds hasChildren htitle rfl rfl rfl
  simpa [Field.tokens, parenthesized_nil] using hall

theorem Name.spellsBehind_typeCondition (type : Name) (term : String) :
    SpellsBehind (chars (Header.typeCondition term (some type.text))) ["on", type.text] := by
  have hon : IsComplete "on" := (⟨"on", by decide⟩ : Name).isComplete
  have htype : SpellsBehind (" ".toList ++ type.text.toList) [type.text] :=
    .gap isGap_blank (by decide) type.isComplete.spells
  have h := SpellsBehind.gap isGap_blank (by decide) (Spells.token hon htype)
  simpa [Header.typeCondition, Header.blank, Header.mark] using h

/-- The header of an inline fragment is printed with a blank behind the dots, so that nothing is
attached to them. -/
theorem Opening.spells_header (o : Opening) :
    Spells (chars (o.head.header false true true term)) (o.normal.tokens ++ ["\x7b"]) := by
  have htitle : Spells (chars (Header.title o.head false term)) o.normal.tokens := by
    cases o with
    | bare =>
        have h := isComplete_dots.spells
        simpa [Header.title, head, Header.mark, Header.typeCondition, normal, tokens] using h
    | apart type | attached type =>
        have h := Spells.token isComplete_dots (type.spellsBehind_typeCondition term)
        simpa [Header.title, head, Header.mark, normal, tokens] using h
  have hall := Written.spells_header [] [] [] true htitle (by cases o <;> rfl) (by cases o <;> rfl)
    (by cases o <;> rfl)
  simpa [parenthesized_nil] using hall

theorem Name.spells_spread (n : Name) :
    Spells (chars (Head.header { kind := .fragment, name := some n.text } false false false term))
      ["..." ++ n.text] := by
  have htitle : Spells (chars (Header.title { kind := .fragment, name := some n.text } false term))
      ["..." ++ n.text] := by
    simpa [Header.title, Header.mark] using (isWord_dots_append n.isWord).spells
  have hall := Written.spells_header [] [] [] false htitle rfl rfl rfl
  simpa [parenthesized_nil] using hall

theorem Block.isEmpty_nodes (b : Block) (levels : Nat) :
    (Forest.ofList (b.nodes levels)).isEmpty = false := by
  cases b <;> rfl

theorem Block.exists_levels (b : Block) {levels : Nat} (h : b.depth ≤ levels) :
    ∃ l, levels = l + 1 :=
  Nat.exists_eq_succ_of_ne_zero (Nat.ne_of_gt (Nat.lt_of_lt_of_le b.depth_pos h))

-- A text is spelled from its end, so what stands behind a selection comes with it.
mutual

theorem Selection.spells_printout (s : Selection) {levels : Nat} (h : s.depth ≤ levels)
    {rest : Forest Head} {us : List Token} (hrest : Spells (rest.printout term false) us) :
    Spells ((Forest.cons (s.node levels).root (s.node levels).below rest).printout term false)
      (s.normal.tokens ++ us) := by
  cases s with
  | leaf f =>
      have hf : Spells (chars (f.head.header false false false term)) (f.tokens ++ []) :=
        f.spells_header false
      rw [List.append_nil] at hf
      exact spells_printout_leaf hf hrest
  | field f b =>
      obtain ⟨levels, rfl⟩ := b.exists_levels h
      have hb := b.spells_printout h
      have hall := spells_printout_cons (b.isEmpty_nodes levels) (f.spells_header true) hb hrest
      simpa [Selection.normal, Selection.node, Selection.tokens, expanded] using hall
  | spread isAttached n hn => exact spells_printout_leaf n.spells_spread hrest
  | inlineFragment o b =>
      obtain ⟨levels, rfl⟩ := b.exists_levels h
      have hb := b.spells_printout h
      have hall := spells_printout_cons (b.isEmpty_nodes levels) o.spells_header hb hrest
      simpa [Selection.normal, Selection.node, Selection.tokens, expanded] using hall

/-- No selection set of the block is collapsed, so all of it is printed. -/
theorem Block.spells_printout (b : Block) {levels : Nat} (h : b.depth ≤ levels + 1) :
    Spells ((Forest.ofList (b.nodes levels)).printout term false) b.normal.tokens := by
  cases b with
  | last s =>
      have hs : s.depth ≤ levels := Nat.le_of_succ_le_succ h
      have hnone : Spells (Forest.nil.printout term false) [] := .nil
      have hall := s.spells_printout hs hnone
      rw [List.append_nil] at hall
      exact hall
  | cons s b =>
      have hs : s.depth ≤ levels :=
        Nat.le_of_succ_le_succ (Nat.le_trans (Nat.le_max_left ..) h)
      have hb : b.depth ≤ levels + 1 := Nat.le_trans (Nat.le_max_right ..) h
      exact s.spells_printout hs (b.spells_printout hb)

end

/-! Definitions and documents. -/

theorem isComplete_operationType (type : OperationType) : IsComplete type.text := by
  cases type with
  | query => exact (⟨"query", by decide⟩ : Name).isComplete
  | mutation => exact (⟨"mutation", by decide⟩ : Name).isComplete
  | subscription => exact (⟨"subscription", by decide⟩ : Name).isComplete

theorem Block.spells_definition (b : Block) (h : b.depth ≤ maxNestingDepth) {head : Head}
    {rest : Forest Head} {ts us : List Token}
    (hheader : Spells (chars (head.header true true true term)) (ts ++ ["\x7b"]))
    (hrest : Spells (rest.printout term true) us) :
    Spells ((Forest.cons head (b.forest maxNestingDepth) rest).printout term true)
      (ts ++ "\x7b" :: (b.normal.tokens ++ "\x7d" :: us)) := by
  obtain ⟨levels, hl⟩ := b.exists_levels h
  have hbelow : b.forest maxNestingDepth = Forest.ofList (b.nodes levels) := by
    rw [Block.forest, hl, expanded]
  rw [hbelow]
  exact spells_printout_cons (b.isEmpty_nodes levels) hheader (b.spells_printout (hl ▸ h)) hrest

/-- The title of an operation begins with its keyword, whether or not a name follows. -/
theorem spells_title_operation (type : OperationType) (name : Option Name)
    (vs : List VariableDefinition) (b : Block) (term : String) :
    Spells (chars (Header.title (Definition.operation type name vs b).node.root true term))
      (type.text :: name.toList.map Name.text) := by
  have htype := isComplete_operationType type
  cases name with
  | none =>
      have h := Spells.token htype .nil
      simpa [Definition.node, Header.title] using h
  | some name =>
      have hname := SpellsBehind.gap isGap_blank (by decide) name.isComplete.spells
      have h := Spells.token htype hname
      simpa [Definition.node, Header.title, Header.blank, Header.mark] using h

theorem spells_title_fragment (name type : Name) (b : Block) (term : String) :
    Spells (chars (Header.title (Definition.fragment name type b).node.root true term))
      ["fragment", name.text, "on", type.text] := by
  have hfragment : IsComplete "fragment" := (⟨"fragment", by decide⟩ : Name).isComplete
  have hname := Spells.token name.isComplete (type.spellsBehind_typeCondition term)
  have h := Spells.token hfragment (.gap isGap_blank (by decide) hname)
  simpa [Definition.node, Header.title, Header.blank, Header.mark] using h

theorem spells_printout_operation (type : OperationType) (name : Option Name)
    (vs : List VariableDefinition) {b : Block} (h : b.depth ≤ maxNestingDepth)
    {rest : Forest Head} {us : List Token} (hrest : Spells (rest.printout term true) us) :
    let n := (Definition.operation type name vs b).node
    Spells ((Forest.cons n.root n.below rest).printout term true)
      ((Definition.operation type name vs b.normal).tokens ++ us) := by
  have htitle := spells_title_operation type name vs b term
  have hheader := spells_header vs [] [] true htitle rfl rfl rfl
  rw [parenthesized_nil, List.flatMap_nil, List.append_nil, List.append_nil, if_pos rfl] at hheader
  simpa [Definition.node, Definition.tokens] using b.spells_definition h hheader hrest

/-- A definition is printed as its normal form, and the rest behind it. -/
theorem Definition.spells_printout (d : Definition) (h : d.depth ≤ maxNestingDepth)
    {rest : Forest Head} {us : List Token} (hrest : Spells (rest.printout term true) us) :
    Spells ((Forest.cons d.node.root d.node.below rest).printout term true)
      (d.normal.tokens ++ us) := by
  cases d with
  | operation type name vs b => exact spells_printout_operation type name vs h hrest
  | bare b => exact spells_printout_operation .query none [] h hrest
  | fragment name type b =>
      have htitle := spells_title_fragment name type b term
      have hheader := spells_header [] [] [] true htitle rfl rfl rfl
      rw [parenthesized_nil, parenthesized_nil, List.flatMap_nil, if_pos rfl] at hheader
      have hall := b.spells_definition h hheader hrest
      simpa [Definition.normal, Definition.node, Definition.tokens] using hall

theorem spells_printout (ds : List Definition) (h : ∀ d ∈ ds, d.depth ≤ maxNestingDepth) :
    Spells ((Forest.ofList (ds.map Definition.node)).printout term true)
      (ds.flatMap fun d => d.normal.tokens) := by
  induction ds with
  | nil => exact .nil
  | cons d ds ih =>
      rw [List.forall_mem_cons] at h
      exact d.spells_printout h.1 (ih h.2)

/-- Reading the normal forms gives the forest of the definitions themselves. -/
theorem forest_parseDefinitions_normal (ds : List Definition) :
    (parseDefinitions (ds.flatMap fun d => d.normal.tokens)).forest =
      Forest.ofList (ds.map Definition.node) := by
  have h := forest_parseDefinitions_tokens (ds.map Definition.normal)
  rw [List.flatMap_map, List.map_map] at h
  rw [h]
  simp only [Function.comp_def, Definition.node_normal]

/-- The lines of a document, in the order in which they are shown, read as the same
document, whatever is searched for. -/
theorem parse_printout (ds : List Definition) (h : ∀ d ∈ ds, d.depth ≤ maxNestingDepth)
    (s : Settings) (term : Option String) :
    let forest := Forest.ofList (ds.map Definition.node)
    let rows := Row.ofForest forest {} {} term
    Layout.lines s rows = (Layout.order rows).map (Layout.Line.styled s) ∧
      (Document.parse (Layout.printout rows)).forest = forest := by
  intro forest rows
  refine ⟨Layout.lines_eq_map s rows, ?_⟩
  have hprintout := Layout.toList_printout_ofForest forest term
  have htokens : tokenize (Layout.printout rows) = ds.flatMap fun d => d.normal.tokens := by
    rw [tokenize_eq, hprintout]
    exact (spells_printout ds h).tokens
  change (parseDefinitions (tokenize (Layout.printout rows))).forest = forest
  rw [htokens, forest_parseDefinitions_normal]

/-- A query with a variable and a spread, and the fragment that is spread. -/
def petQuery : List Definition :=
  let pet : Name := ⟨"pet", by decide⟩
  let id : Name := ⟨"id", by decide⟩
  let details : Name := ⟨"PetDetails", by decide⟩
  let one : Scalar := ⟨"1", by decide⟩
  let ids : VariableDefinition :=
    ⟨id, .required (.list (.named ⟨"Int", by decide⟩)), some one⟩
  let pick : Argument := ⟨id, .list (.cons (.variableName id) (.cons (.scalar one) .nil))⟩
  let first : Field := ⟨some ⟨"first", by decide⟩, pet, [pick], []⟩
  let inside : Block :=
    .cons (.spread false details (by decide))
      (.last (.inlineFragment .bare (.last (.leaf { name := id }))))
  [.operation .query none [ids] (.last (.field first inside)),
    .fragment details ⟨"Pet", by decide⟩ (.last (.leaf { name := id }))]

theorem parse_printout_petQuery :
    (∀ d ∈ petQuery, d.depth ≤ maxNestingDepth) ∧
      let settings := Settings.ofDefaults {}
      let forest := Forest.ofList (petQuery.map Definition.node)
      let rows := Row.ofForest forest {} {} (some "et")
      Layout.lines settings rows = (Layout.order rows).map (Layout.Line.styled settings) ∧
        (Document.parse (Layout.printout rows)).forest = forest :=
  ⟨by decide, parse_printout petQuery (by decide) (Settings.ofDefaults {}) (some "et")⟩

end Written

end QueryOutline
