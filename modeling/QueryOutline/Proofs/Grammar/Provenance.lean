import Mathlib.Data.List.Flatten
import QueryOutline.Document
import QueryOutline.Proofs.Token.Scanning

/-!
Where the texts of a forest come from. Every rule puts what it reads into its answer in
the order of reading, or drops it. So the texts of all nodes, one behind the other, are
what remains of the document when some of it is crossed out. Blanks do not count, because
values are joined with blanks of their own.
-/

namespace QueryOutline

open List

namespace Text

def ink (s : String) : List Char :=
  s.toList.filter (!isBlank ·)

@[simp] theorem ink_blank : ink " " = [] := by decide

@[simp] theorem ink_getD (s? : Option String) : ink (s?.getD "") = s?.toList.flatMap ink := by
  cases s? with
  | none => rfl
  | some s => simp

theorem ink_join (texts : List String) : ink (String.join texts) = texts.flatMap ink := by
  simp only [ink, String.toList_join, List.filter_flatMap]
  rfl

theorem filter_dropWhile_isBlank (cs : List Char) :
    (cs.dropWhile isBlank).filter (!isBlank ·) = cs.filter (!isBlank ·) := by
  induction cs with
  | nil => rfl
  | cons c cs ih =>
      by_cases hc : isBlank c = true
      · simp [hc, ih]
      · simp [hc]

/-- Trimming takes away nothing but blanks. -/
@[simp] theorem ink_trim (s : String) : ink (trim s) = ink s := by
  simp [ink, trim, trimChars, List.filter_reverse, filter_dropWhile_isBlank]

end Text

open Text

/-! The texts of a node, in the order in which a document gives them. -/

def Argument.writtenTexts (a : Argument) : List String :=
  [a.name, a.value]

def Directive.writtenTexts (d : Directive) : List String :=
  d.name :: d.arguments.flatMap Argument.writtenTexts

def VariableDefinition.writtenTexts (v : VariableDefinition) : List String :=
  v.name :: v.type :: v.defaultValue.toList

/-- The keyword of an operation is not among its texts. -/
def Head.writtenTexts (h : Head) : List String :=
  match h.kind with
  | .operation => h.name.toList ++ h.variableDefinitions.flatMap VariableDefinition.writtenTexts
  | .fragment => h.name.toList ++ h.typeCondition.toList
  | .inlineFragment => h.typeCondition.toList
  | .field =>
      h.aliasName.toList ++ h.name.toList ++ h.arguments.flatMap Argument.writtenTexts ++
        h.directives.flatMap Directive.writtenTexts

def Forest.writtenTexts (f : Forest Head) : List String :=
  f.preorder.flatMap Head.writtenTexts

def Tree.writtenTexts (n : Tree Head) : List String :=
  n.root.writtenTexts ++ n.below.writtenTexts

@[simp] theorem Forest.writtenTexts_nil : (Forest.nil : Forest Head).writtenTexts = [] := rfl

theorem Forest.writtenTexts_cons (root : Head) (below rest : Forest Head) :
    (Forest.cons root below rest).writtenTexts =
      (Tree.mk root below).writtenTexts ++ rest.writtenTexts := by
  simp [Forest.writtenTexts, Tree.writtenTexts, Forest.preorder]

theorem Forest.writtenTexts_ofList (ns : List Node) :
    (Forest.ofList ns).writtenTexts = ns.flatMap Tree.writtenTexts := by
  induction ns with
  | nil => rfl
  | cons n ns ih => rw [Forest.ofList, Forest.writtenTexts_cons, ih, List.flatMap_cons]

/-! Rules. -/

namespace Rule

variable {α β : Type} {r x : Rule α} {f : α → Rule β} {a : α} {held : List String}
  {texts : α → List String} {more : β → List String}

/-- With some texts held already, the texts of what a rule finds and the tokens it leaves
are drawn from the texts held and the tokens it is given. -/
def Draws (held : List String) (texts : α → List String) (r : Rule α) : Prop :=
  ∀ ts, (texts (r.read ts).result ++ (r.read ts).rest).flatMap ink <+ (held ++ ts).flatMap ink

theorem Draws.pure (h : (texts a).flatMap ink <+ held.flatMap ink) :
    Draws held texts (pure a) := by
  intro ts
  rw [read_pure, List.flatMap_append, List.flatMap_append]
  exact h.append_right _

theorem Draws.bind (hx : Draws held texts x) (hf : ∀ a, Draws (texts a) more (f a)) :
    Draws held more (x >>= f) := by
  intro ts
  exact (hf _ _).trans (hx ts)

/-- A rule does not touch what is held. -/
theorem Draws.hold (h : Draws [] texts x) (held : List String) :
    Draws held (fun a => held ++ texts a) x := by
  have hsplit (ts : List Token) : (held ++ ts).flatMap ink = held.flatMap ink ++ ts.flatMap ink :=
    List.flatMap_append
  intro ts
  rw [List.append_assoc, hsplit, hsplit]
  exact (h ts).append_left _

/-- What the first rule reads is held behind what was held before. -/
theorem Draws.andThen (hx : Draws [] texts x) (hf : ∀ a, Draws (held ++ texts a) more (f a)) :
    Draws held more (x >>= f) :=
  (hx.hold held).bind hf

theorem Draws.mono {fewer : List String} (h : Draws fewer texts r)
    (hs : fewer.flatMap ink <+ held.flatMap ink) : Draws held texts r := by
  intro ts
  refine (h ts).trans ?_
  rw [List.flatMap_append, List.flatMap_append]
  exact hs.append_right _

theorem Draws.drop (h : Draws [] texts r) : Draws held texts r :=
  h.mono (List.nil_sublist _)

theorem Draws.map {g : α → β} (h : Draws held (fun a => more (g a)) r) :
    Draws held more (g <$> r) :=
  h

theorem Draws.ite {c : Prop} [Decidable c] {x y : Rule α} (hx : Draws held texts x)
    (hy : Draws held texts y) : Draws held texts (if c then x else y) := by
  split
  · exact hx
  · exact hy

theorem draws_nothing (r : Rule α) : Draws [] (fun _ => []) r := by
  intro ts
  exact (r.rest_suffix ts).sublist.flatMap ink

theorem draws_take : Draws [] Option.toList take := by
  intro ts
  cases ts <;> exact Sublist.refl _

theorem draws_takeUntil (p : Token → Bool) : Draws [] id (takeUntil p) := by
  intro ts
  have hread : (takeUntil p).read ts = ⟨ts.takeWhile (!p ·), ts.dropWhile (!p ·)⟩ := rfl
  rw [hread, id, List.takeWhile_append_dropWhile]
  exact Sublist.refl _

theorem draws_takeUnless (excluded : List Token) :
    Draws [] Option.toList (takeUnless excluded) := by
  intro ts
  cases ts with
  | nil => exact Sublist.refl _
  | cons t ts =>
      by_cases ht : t ∈ excluded
      · rw [read_takeUnless_of_mem ht]
        exact Sublist.refl _
      · rw [read_takeUnless_of_notMem ht]
        exact Sublist.refl _

/-- The blanks between the tokens are the only characters a value has of its own. -/
theorem ink_valuePieces (ts : List Token) : (valuePieces ts).flatMap ink = ts.flatMap ink := by
  induction ts with
  | nil => rfl
  | cons t ts ih =>
      cases ts with
      | nil => rfl
      | cons u us =>
          have hpieces : valuePieces (t :: u :: us) =
              if t = "$" then t :: valuePieces (u :: us)
              else t :: " " :: valuePieces (u :: us) := rfl
          rw [hpieces]
          split
          · rw [List.flatMap_cons, ih, ← List.flatMap_cons]
          · rw [List.flatMap_cons, List.flatMap_cons, ink_blank, List.nil_append, ih,
              ← List.flatMap_cons]

theorem draws_value : Draws [] (fun v => [v]) value := by
  intro ts
  have hread : value.read ts = ⟨joinValue (splitValue 0 ts).1, (splitValue 0 ts).2⟩ := rfl
  have hjoin : ink (joinValue (splitValue 0 ts).1) = (splitValue 0 ts).1.flatMap ink := by
    rw [joinValue, ink_trim, ink_join, ink_valuePieces]
  rw [hread, List.singleton_append, List.flatMap_cons, hjoin, ← List.flatMap_append,
    splitValue_append]
  exact Sublist.refl _

/-! Loops. -/

/-- Items are found in the order in which they stand. -/
theorem draws_manyUntil {closing : Token} {item : Token → Rule (Option α)}
    (hi : ∀ t, Draws [t] (fun a? => a?.toList.flatMap texts) (item t)) :
    Draws [] (fun found => found.flatMap texts) (manyUntil closing item) := by
  intro ts
  rw [read_manyUntil, List.nil_append]
  fun_induction readUntil closing item ts with
  | case1 => exact Sublist.refl _
  | case2 ts => exact (List.sublist_cons_self closing ts).flatMap ink
  | case3 t ts _ found others ih =>
      have hitem := hi t ts
      rw [List.singleton_append] at hitem
      simp only [List.flatMap_append, List.append_assoc] at hitem ih ⊢
      exact (ih.append_left _).trans hitem

theorem draws_manyMarked {marker : Token} (hr : Draws [] texts r) :
    Draws [] (fun found => found.flatMap texts) (manyMarked marker r) := by
  intro ts
  rw [read_manyMarked, List.nil_append]
  fun_induction readMarked marker r ts with
  | case1 => exact Sublist.refl _
  | case2 ts found others ih =>
      have hitem := (hr ts).trans ((List.sublist_cons_self marker ts).flatMap ink)
      simp only [List.flatMap_cons, List.flatMap_append, List.append_assoc] at hitem ih ⊢
      exact (ih.append_left _).trans hitem
  | case3 => exact Sublist.refl _

/-! The rules of the grammar. -/

theorem draws_argument (name : Token) :
    Draws [name] (fun a? => a?.toList.flatMap Argument.writtenTexts) (argument name) := by
  refine (draws_nothing _).andThen fun _ => Draws.ite ?_ (.pure (by simp))
  exact draws_value.andThen fun v => .pure (by simp [Argument.writtenTexts])

theorem draws_arguments :
    Draws [] (fun found => found.flatMap Argument.writtenTexts) arguments :=
  (draws_nothing _).andThen fun _ => Draws.ite (draws_manyUntil draws_argument) (.pure (by simp))

theorem draws_directives :
    Draws [] (fun found => found.flatMap Directive.writtenTexts) directives := by
  refine draws_manyMarked (draws_take.andThen fun name => draws_arguments.andThen fun _ => ?_)
  exact .pure (by simp [Directive.writtenTexts])

section Selections

variable {selections : Rule (Forest Head)}

theorem Draws.selectionSet (h : Draws [] Forest.writtenTexts selections) :
    Draws [] Forest.writtenTexts (selectionSet selections) :=
  (draws_nothing _).andThen fun _ => Draws.ite h (.pure (by simp))

/-- A document gives the alias before the name. -/
theorem Draws.field (h : Draws [] Forest.writtenTexts selections) (first : Option Token) :
    Draws first.toList Tree.writtenTexts (field selections first) := by
  have hrest (aliasName name : Option Token) :
      Draws (aliasName.toList ++ name.toList) Tree.writtenTexts do
        let arguments ← arguments
        let directives ← directives
        let below ← Rule.selectionSet selections
        let head : Head :=
          { kind := .field, name := some (name.getD ""), arguments, directives, aliasName }
        return ⟨head, below⟩ := by
    refine draws_arguments.andThen fun _ => draws_directives.andThen fun _ => ?_
    exact h.selectionSet.andThen fun _ => .pure (by simp [Tree.writtenTexts, Head.writtenTexts])
  refine (draws_nothing _).andThen fun aliased => ?_
  rw [List.append_nil]
  cases aliased with
  | false => exact (Draws.pure (Sublist.refl _)).bind (hrest none)
  | true => exact (draws_take.hold first.toList).bind (hrest first)

theorem Draws.inlineFragment (h : Draws [] Forest.writtenTexts selections) :
    Draws [] Tree.writtenTexts (inlineFragment selections) := by
  refine draws_take.andThen fun _ => h.selectionSet.andThen fun _ => ?_
  exact .pure (by simp [Tree.writtenTexts, Head.writtenTexts])

theorem Draws.spread (h : Draws [] Forest.writtenTexts selections) (attached : String) :
    Draws [attached] Tree.writtenTexts (spread selections attached) := by
  refine Draws.ite h.inlineFragment.drop (Draws.ite ?_ (Draws.drop ?_))
  · exact .pure (by simp [Tree.writtenTexts, Head.writtenTexts])
  · refine (draws_nothing _).andThen fun _ => Draws.ite h.inlineFragment ?_
    refine (draws_nothing _).andThen fun _ => Draws.ite ?_ ?_
    · refine h.selectionSet.andThen fun _ => ?_
      exact .pure (by simp [Tree.writtenTexts, Head.writtenTexts])
    · refine draws_take.andThen fun _ => ?_
      exact .pure (by simp [Tree.writtenTexts, Head.writtenTexts])

/-- An attached word is its token without the dots. -/
theorem ink_attachedWord? {t : Token} {attached : String} (h : attachedWord? t = some attached) :
    ink attached <+ ink t := by
  unfold attachedWord? at h
  split at h
  · next rest hrest =>
      obtain rfl := Option.some.inj h
      rw [ink, ink, hrest, String.toList_ofList]
      exact (List.sublist_append_right ['.', '.', '.'] rest).filter _
  · contradiction

/-- The first token is in hand, as the name of a field or with a word attached to its dots. -/
theorem Draws.selection (h : Draws [] Forest.writtenTexts selections) (first : Token) :
    Draws [first] Tree.writtenTexts (selection selections first) := by
  unfold Rule.selection
  split
  · next attached ha =>
      exact (h.spread attached).mono (by simpa using ink_attachedWord? ha)
  · exact h.field (some first)

end Selections

theorem draws_selections (levels : Nat) : Draws [] Forest.writtenTexts (selections levels) := by
  induction levels with
  | zero => exact (draws_nothing _).andThen fun _ => .pure (by simp)
  | succ levels ih =>
      have hmany : Draws [] (fun found => found.flatMap Tree.writtenTexts)
          (manyUntil "\x7d" fun first => some <$> Rule.selection (selections levels) first) :=
        draws_manyUntil fun first => Draws.map (by simpa using ih.selection first)
      exact hmany.andThen fun found => .pure (by simp [Forest.writtenTexts_ofList])

theorem draws_variableDefinition (first : Token) :
    Draws [first] (fun v? => v?.toList.flatMap VariableDefinition.writtenTexts)
      (variableDefinition first) := by
  refine Draws.ite (.pure (by simp)) (Draws.drop ?_)
  refine draws_take.andThen fun name => (draws_nothing _).andThen fun _ => ?_
  refine (draws_takeUntil _).andThen fun type => (draws_nothing _).andThen fun _ => ?_
  have hnone : Draws [] Option.toList (pure none) := .pure (Sublist.refl _)
  refine Draws.ite (draws_take.andThen fun _ => ?_) (hnone.andThen fun _ => ?_)
  all_goals exact .pure (by simp [VariableDefinition.writtenTexts, ink_join])

theorem draws_variableDefinitions :
    Draws [] (fun found => found.flatMap VariableDefinition.writtenTexts) variableDefinitions :=
  (draws_nothing _).andThen fun _ =>
    Draws.ite (draws_manyUntil draws_variableDefinition) (.pure (by simp))

theorem draws_definition? {t : Token} {rule : Rule Node} (h : definition? t = some rule) :
    Draws [] Tree.writtenTexts rule := by
  have hb := draws_selections maxNestingDepth
  rw [definition?] at h
  split at h
  · obtain rfl := Option.some.inj h
    refine draws_take.andThen fun _ => (draws_nothing _).andThen fun _ => ?_
    refine (draws_takeUnless _).andThen fun _ => hb.selectionSet.andThen fun _ => ?_
    exact .pure (by simp [Tree.writtenTexts, Head.writtenTexts])
  · split at h
    · obtain rfl := Option.some.inj h
      exact hb.andThen fun _ => .pure (by simp [Tree.writtenTexts, Head.writtenTexts])
    · obtain ⟨type, -, rfl⟩ := Option.map_eq_some_iff.mp h
      refine (draws_takeUnless _).andThen fun _ => draws_variableDefinitions.andThen fun _ => ?_
      refine hb.selectionSet.andThen fun _ => ?_
      exact .pure (by simp [Tree.writtenTexts, Head.writtenTexts])

end Rule

/-- Definitions are read one behind the other, and skipped tokens are crossed out. -/
theorem Definitions.ink_readFrom (position : Nat) (ts : List Token) :
    (readFrom position ts).forest.writtenTexts.flatMap ink <+ ts.flatMap ink := by
  fun_induction readFrom position ts with
  | case1 => exact Sublist.refl _
  | case2 position t ts _ others ih => exact ih.trans ((List.sublist_cons_self t ts).flatMap ink)
  | case3 position t ts rule hd found others ih =>
      have hrule := (Rule.draws_definition? hd ts).trans ((List.sublist_cons_self t ts).flatMap ink)
      rw [List.flatMap_append] at hrule
      rw [Forest.writtenTexts_cons, List.flatMap_append]
      exact (ih.append_left _).trans hrule

/-- The texts of the nodes of a document, each node before those below it, are what
remains of the document when characters are crossed out. -/
theorem Document.ink_writtenTexts_parse (text : String) :
    (Document.parse text).forest.writtenTexts.flatMap ink <+ ink text := by
  have htokens := (Token.flatMap_toList_tokenize text).filter (!isBlank ·)
  rw [List.filter_flatMap] at htokens
  exact (Definitions.ink_readFrom 0 (tokenize text)).trans htokens

end QueryOutline
