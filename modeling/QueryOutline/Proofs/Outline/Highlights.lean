import QueryOutline.Proofs.Grammar.NodeModel
import QueryOutline.Proofs.Outline.Visible

/-!
Highlights. The header of a node and its searchable texts list the attributes each in its
own way, and a header takes no notice of some that a node of its kind could have. For nodes
that obey the node model nothing is lost between the two: a row shows one highlight for each
text of its node that the term occurs in.
-/

namespace QueryOutline

namespace Text

def shows (term s : String) : Bool :=
  term != "" && occursIn term s

@[simp] theorem shows_empty_term (s : String) : shows "" s = false := rfl

theorem shows_of_ne {term : String} (h : term ≠ "") (s : String) :
    shows term s = occursIn term s := by
  simp [shows, h]

@[simp] theorem shows_empty (term : String) : shows term "" = false := by
  by_cases h : term = ""
  · rw [h, shows_empty_term]
  · have hl : term.toList ≠ [] := mt String.toList_eq_nil_iff.mp h
    simp [shows, occursIn, splitAtFirst?, hl]

def copies (term : String) (texts : List String) : List String :=
  List.replicate (texts.countP (shows term)) term

variable {term : String}

@[simp] theorem copies_nil : copies term [] = [] := rfl

@[simp] theorem copies_append (ss ts : List String) :
    copies term (ss ++ ts) = copies term ss ++ copies term ts := by
  rw [copies, List.countP_append, ← List.replicate_append_replicate]
  rfl

theorem copies_cons (s : String) (ts : List String) :
    copies term (s :: ts) = copies term [s] ++ copies term ts :=
  copies_append [s] ts

theorem copies_flatMap {α : Type} (as : List α) (texts : α → List String) :
    copies term (as.flatMap texts) = as.flatMap fun a => copies term (texts a) := by
  induction as with
  | nil => rfl
  | cons a as ih => rw [List.flatMap_cons, copies_append, ih, List.flatMap_cons]

/-- Copies are all of one term, so that their order does not matter. -/
theorem copies_append_comm (ss ts : List String) :
    copies term ss ++ copies term ts = copies term ts ++ copies term ss := by
  simp only [copies, List.replicate_append_replicate, Nat.add_comm]

/-- An absent text shows as little as an empty one. -/
theorem copies_getD (s? : Option String) : copies term [s?.getD ""] = copies term s?.toList := by
  cases s? with
  | none => simp [copies]
  | some s => rfl

/-- Texts that are missing or empty have no copies. -/
theorem copies_given (texts : List (Option String)) :
    copies term (texts.filterMap (·.filter (· != ""))) =
      texts.flatMap fun s? => copies term s?.toList := by
  induction texts with
  | nil => rfl
  | cons s? texts ih =>
      rw [List.flatMap_cons, ← ih]
      cases s? with
      | none => rfl
      | some s =>
          by_cases hs : s = ""
          · simp [hs, copies]
          · rw [List.filterMap_cons_some (b := s) (by simp [hs]), copies_cons]
            rfl

end Text

open Text

namespace Segment

variable {term : String}

def marked (gs : List Segment) : List String :=
  (gs.filter (·.highlighted)).map (·.text)

@[simp] theorem marked_nil : marked [] = [] := rfl

@[simp] theorem marked_append (gs hs : List Segment) :
    marked (gs ++ hs) = marked gs ++ marked hs := by
  simp [marked]

theorem marked_cons_of_plain {g : Segment} (h : g.highlighted = false) (gs : List Segment) :
    marked (g :: gs) = marked gs := by
  simp [marked, h]

@[simp] theorem marked_part (role : Role) (cs : List Char) : marked (part role cs) = [] := by
  cases cs <;> rfl

/-- A text is split at the first occurrence of the term only. -/
theorem marked_highlight (text : String) (role : Role) :
    marked (highlight text role term) = copies term [text] := by
  by_cases h : term = ""
  · simp [h, highlight, marked, copies]
  · have hl : term.isEmpty = false := by simpa using h
    have hs := shows_of_ne h text
    simp only [highlight, hl, Bool.false_eq_true, if_false]
    split
    · next hnone => simp [marked, copies, hs, occursIn, hnone]
    · next before after hsome =>
        have hm : marked (⟨term, role, true⟩ :: part role after) = [term] := by
          rw [marked, List.filter_cons_of_pos rfl, List.map_cons]
          exact congrArg (term :: ·) (marked_part role after)
        simp [copies, hs, occursIn, hsome, hm]

end Segment

namespace Header

open Segment

variable {term : String}

theorem marked_parenthesized (entries : List (List Segment)) :
    marked (parenthesized entries) = entries.flatMap marked := by
  have hinside : marked (entries.intersperse [mark ", "]).flatten = entries.flatMap marked := by
    induction entries with
    | nil => rfl
    | cons e es ih =>
        cases es with
        | nil => simp
        | cons f es =>
            rw [List.intersperse_cons_cons, List.flatten_cons, List.flatten_cons, marked_append,
              marked_append, ih]
            rfl
  cases entries with
  | nil => rfl
  | cons e es =>
      rw [← hinside, parenthesized, List.isEmpty_cons, if_neg (by simp), marked_cons_of_plain rfl,
        marked_append]
      exact List.append_nil _

theorem marked_variableDefinition (v : VariableDefinition) :
    marked (variableDefinition term v) = copies term [v.name, v.type] := by
  rw [variableDefinition, marked_append, marked_append, marked_cons_of_plain rfl,
    marked_highlight, marked_cons_of_plain rfl, marked_highlight, ← copies_append]
  cases v.defaultValue <;> exact List.append_nil _

theorem marked_argument (a : Argument) :
    marked (argument term a) = copies term [a.name, a.value] := by
  rw [argument, marked_append, marked_highlight, marked_cons_of_plain rfl, marked_highlight,
    ← copies_append]
  rfl

theorem marked_directive (d : Directive) : marked (directive d) = [] := by
  rw [directive, marked_cons_of_plain rfl, marked_cons_of_plain rfl, marked_parenthesized,
    List.flatMap_map]
  exact List.flatMap_eq_nil_iff.mpr fun _ _ => rfl

theorem marked_directives (ds : List Directive) : marked (ds.flatMap directive) = [] := by
  induction ds with
  | nil => rfl
  | cons d ds ih => rw [List.flatMap_cons, marked_append, marked_directive, ih, List.append_nil]

theorem marked_typeCondition (type : Option String) :
    marked (typeCondition term type) = copies term type.toList := by
  cases type with
  | none => rfl
  | some type => exact marked_highlight type .type

theorem marked_brace (hasChildren isOpen : Bool) : marked (brace hasChildren isOpen) = [] := by
  cases hasChildren <;> rfl

/-- Every text that identifies the node of a document is part of its title. -/
theorem marked_title {h : Head} {isDefinition hasChildren : Bool}
    (hfits : h.Fits isDefinition hasChildren) :
    marked (title h isDefinition term) =
      copies term h.name.toList ++ copies term h.aliasName.toList ++
        copies term (h.operationType.map OperationType.text).toList ++
        copies term h.typeCondition.toList := by
  have hno : copies term (none : Option String).toList = [] := rfl
  cases hk : h.kind with
  | operation =>
      simp only [Head.Fits, hk] at hfits
      obtain ⟨-, -, halias, htype, -⟩ := hfits
      simp only [title, hk, marked_append, marked_highlight, copies_getD, halias, htype, hno,
        List.append_nil]
      -- the title has the keyword in front of the name
      rw [copies_append_comm]
      cases h.name with
      | none => rfl
      | some name => exact congrArg (_ ++ ·) (marked_highlight name .definitionName)
  | fragment =>
      simp only [Head.Fits, hk] at hfits
      obtain ⟨-, htype, halias, -, -, -, hspread⟩ := hfits
      simp only [title, hk, halias, htype, Option.map_none, hno, List.append_nil]
      cases isDefinition with
      | true =>
          simp only [if_true, List.cons_append]
          rw [marked_cons_of_plain rfl, marked_cons_of_plain rfl, marked_append,
            marked_highlight, copies_getD, marked_typeCondition]
      | false =>
          obtain ⟨hcondition, -⟩ := hspread rfl
          simp only [Bool.false_eq_true, if_false, hcondition, hno, List.append_nil]
          rw [marked_cons_of_plain rfl, marked_highlight, copies_getD]
  | inlineFragment =>
      simp only [Head.Fits, hk] at hfits
      obtain ⟨-, hname, htype, halias, -⟩ := hfits
      simp only [title, hk, hname, halias, htype, Option.map_none, hno, List.nil_append]
      rw [marked_cons_of_plain rfl, marked_typeCondition]
  | field =>
      simp only [Head.Fits, hk] at hfits
      obtain ⟨-, -, htype, hcondition, -⟩ := hfits
      simp only [title, hk, marked_append, marked_highlight, copies_getD, htype, hcondition,
        Option.map_none, hno, List.append_nil]
      -- the title has the alias in front of the name
      rw [copies_append_comm]
      cases h.aliasName with
      | none => rfl
      | some a =>
          have hmark : marked [mark ": "] = [] := rfl
          rw [marked_append, marked_highlight, hmark, List.append_nil]
          rfl

end Header

open Segment Header in
/-- The header of a node shows the term where the node's own texts do, and nowhere else. -/
theorem Head.marked_header {h : Head} {isDefinition hasChildren : Bool} (isOpen : Bool)
    (term : String) (hfits : h.Fits isDefinition hasChildren) :
    marked (h.header isDefinition hasChildren isOpen term) = copies term h.ownTexts := by
  have hvariables : marked (parenthesized (h.variableDefinitions.map (variableDefinition term))) =
      copies term (h.variableDefinitions.flatMap fun v => [v.name, v.type]) := by
    simp only [marked_parenthesized, List.flatMap_map, marked_variableDefinition, copies_flatMap]
  have harguments : marked (parenthesized (h.arguments.map (argument term))) =
      copies term (h.arguments.flatMap fun a => [a.name, a.value]) := by
    simp only [marked_parenthesized, List.flatMap_map, marked_argument, copies_flatMap]
  calc marked (h.header isDefinition hasChildren isOpen term)
      = marked (title h isDefinition term) ++
          (copies term (h.variableDefinitions.flatMap fun v => [v.name, v.type]) ++
            copies term (h.arguments.flatMap fun a => [a.name, a.value])) := by
        simp only [header, marked_append, hvariables, harguments, marked_directives, marked_brace,
          List.append_nil, List.append_assoc]
    _ = marked (title h isDefinition term) ++
          (copies term (h.arguments.flatMap fun a => [a.name, a.value]) ++
            copies term (h.variableDefinitions.flatMap fun v => [v.name, v.type])) := by
        rw [copies_append_comm]
    _ = copies term h.ownTexts := by
        simp only [marked_title hfits, ownTexts, copies_append, copies_given, List.flatMap_cons,
          List.flatMap_nil, List.append_nil, List.append_assoc]

/-- A row is highlighted for the texts that its node is searched by, and for no others. -/
theorem Row.highlights_ofTree {openAt : Path → Bool} {term : String} {path : Path}
    {t : Tree (Head × Bool)} (h : t.root.1.Fits (path.length == 1) t.hasChildren) :
    (ofTree openAt term path t).highlights = copies term t.root.1.ownTexts :=
  Head.marked_header _ term h

/-- In a row of a document the term is highlighted once for each text of the node that it
occurs in. So the rows with highlights are those of nodes that match by themselves, and a row
that is there for the sake of a node below it has none. -/
theorem Row.highlights_ofForest (ts : List Token) (t : Toolbar) (o : Overrides)
    (term : Option String) :
    let forest := (parseDefinitions ts).forest
    let word := term.getD t.effectiveTerm
    ∀ r ∈ ofForest forest t o term, ∃ n, forest.at? r.path = some n ∧
      (word ≠ "" →
        r.highlights = List.replicate (n.root.ownTexts.countP (occursIn word)) word ∧
          (r.highlights ≠ [] ↔ n.root.matchesDirectly word = true)) ∧
      (word = "" → r.highlights = []) := by
  intro forest word r hr
  obtain ⟨path, u, hu, -, rfl⟩ := mem_ofForest.mp hr
  rw [Forest.markMatches, Forest.at?_markUp, Option.map_eq_some_iff] at hu
  obtain ⟨n, hn, rfl⟩ := hu
  obtain ⟨hfits, -⟩ := (Definitions.obeys_readFrom 0 ts).of_at? hn
  have hhighlights (p : Head → Bool) :
      (ofTree (o.isOpen t) word path (Forest.markTree p n)).highlights =
        copies word n.root.ownTexts :=
    highlights_ofTree (by rw [Forest.hasChildren_markTree]; exact hfits)
  refine ⟨n, hn, ?_⟩
  rw [hhighlights]
  refine ⟨fun hword => ?_, fun hword => by simp [hword, copies]⟩
  have hcopies : copies word n.root.ownTexts =
      List.replicate (n.root.ownTexts.countP (occursIn word)) word := by
    rw [copies, funext (shows_of_ne hword)]
  refine ⟨hcopies, ?_⟩
  calc copies word n.root.ownTexts ≠ []
      ↔ 0 < n.root.ownTexts.countP (occursIn word) := by
        rw [hcopies, ne_eq, List.replicate_eq_nil_iff, Nat.pos_iff_ne_zero]
    _ ↔ n.root.matchesDirectly word = true := by
        rw [List.countP_pos_iff, Head.matchesDirectly, List.any_eq_true]

/-- A term in the name and in the value of one argument, below an operation that matches
through this field only. -/
theorem Row.highlights_ofForest_argument :
    let forest := (parseDefinitions (tokenize "\x7b user(id: \"id\") pet \x7d")).forest
    ∃ r ∈ ofForest forest {} {} (some "id"), r.path = [0, 0] ∧ r.highlights = ["id", "id"] ∧
      ∃ n, forest.at? r.path = some n ∧ n.root.matchesDirectly "id" = true := by
  intro forest
  obtain ⟨r, hr, hpath, hmarked⟩ : ∃ r ∈ ofForest forest {} {} (some "id"),
      r.path = [0, 0] ∧ r.highlights = ["id", "id"] := by decide +kernel
  obtain ⟨n, hn, hword, -⟩ := highlights_ofForest _ {} {} (some "id") r hr
  obtain ⟨-, hmatches⟩ := hword (by decide)
  exact ⟨r, hr, hpath, hmarked, n, hn, hmatches.mp (by simp [hmarked])⟩

end QueryOutline
