import QueryOutline.Display.Console
import QueryOutline.Proofs.Display.Printout
import QueryOutline.Proofs.Display.Spans
import QueryOutline.Proofs.Grammar.Letters
import QueryOutline.Proofs.Token.EndState

/-!
Line breaks of a printed outline. The brace layout prints one line for a row and one for the
brace of an open row, and one more for each line break in the text of a row. These breaks are
the document's own: a header is laid out without any, and outside of literals a line break only
separates tokens. So they come from literals, the one place where a text is kept as it is.
-/

namespace QueryOutline

/-! The letters of headers. -/

/-- Letters among which a header finds all that it adds to the texts of a node. -/
def HoldsPlain (letters : Char → Prop) : Prop :=
  ∀ c, Text.isBlank c = false ∨ c = ' ' → letters c

namespace Segment

variable {letters : Char → Prop} {gs hs : List Segment} {term text : String} {role : Role}

def Over (letters : Char → Prop) (gs : List Segment) : Prop :=
  ∀ c ∈ chars gs, letters c

theorem Over.nil : Over letters [] := by
  simp [Over]

theorem over_append_iff : Over letters (gs ++ hs) ↔ Over letters gs ∧ Over letters hs := by
  simp only [Over, chars_append, List.forall_mem_append]

theorem over_cons_iff {g : Segment} :
    Over letters (g :: gs) ↔ Text.IsOver letters g.text ∧ Over letters gs := by
  simp only [Over, chars_cons, List.forall_mem_append, Text.IsOver]

theorem over_highlight (h : Text.IsOver letters text) :
    Over letters (highlight text role term) := by
  rwa [Over, chars_highlight]

end Segment

namespace HoldsPlain

open Segment

variable {letters : Char → Prop} {term : String}

theorem isOver (h : HoldsPlain letters) {s : String}
    (hs : s.toList.all (fun c => !Text.isBlank c || c == ' ') = true) : Text.IsOver letters s := by
  intro c hc
  apply h
  simpa using List.all_eq_true.mp hs c hc

theorem over_parenthesized (h : HoldsPlain letters) {α : Type} {as : List α}
    {f : α → List Segment} (hf : ∀ a ∈ as, Over letters (f a)) :
    Over letters (Header.parenthesized (as.map f)) := by
  have hinside : Over letters ((as.map f).intersperse [Header.mark ", "]).flatten := by
    induction as with
    | nil => exact .nil
    | cons a as ih =>
        obtain ⟨ha, has⟩ := List.forall_mem_cons.mp hf
        cases as with
        | nil => simpa using ha
        | cons b as =>
            simp only [List.map_cons, List.intersperse_cons_cons, List.flatten_cons,
              over_append_iff, over_cons_iff]
            exact ⟨ha, ⟨h.isOver (by decide), .nil⟩, ih has⟩
  unfold Header.parenthesized
  split
  · exact .nil
  · simp only [over_cons_iff, over_append_iff]
    exact ⟨h.isOver (by decide), hinside, h.isOver (by decide), .nil⟩

theorem over_variableDefinition (h : HoldsPlain letters) {v : VariableDefinition}
    (hv : AllOver letters v.writtenTexts) : Over letters (Header.variableDefinition term v) := by
  simp only [AllOver, VariableDefinition.writtenTexts, List.forall_mem_cons] at hv
  obtain ⟨hname, htype, hdefault⟩ := hv
  simp only [Header.variableDefinition, over_append_iff, over_cons_iff, List.cons_append]
  refine ⟨h.isOver (by decide), ⟨over_highlight hname, h.isOver (by decide),
    over_highlight htype⟩, ?_⟩
  cases hd : v.defaultValue with
  | none => exact .nil
  | some d =>
      rw [hd] at hdefault
      exact over_cons_iff.mpr ⟨h.isOver (by decide),
        over_cons_iff.mpr ⟨hdefault d (by simp), .nil⟩⟩

theorem over_argument (h : HoldsPlain letters) {a : Argument}
    (ha : AllOver letters a.writtenTexts) : Over letters (Header.argument term a) := by
  simp only [AllOver, Argument.writtenTexts, List.forall_mem_cons] at ha
  simp only [Header.argument, over_append_iff, over_cons_iff]
  exact ⟨over_highlight ha.1, h.isOver (by decide), over_highlight ha.2.1⟩

theorem over_directive (h : HoldsPlain letters) {d : Directive}
    (hd : AllOver letters d.writtenTexts) : Over letters (Header.directive d) := by
  obtain ⟨hname, hvalues⟩ := List.forall_mem_cons.mp hd
  have hsign : Text.IsOver letters ("@" ++ d.name) := by
    intro c hc
    rw [String.toList_append, List.mem_append] at hc
    exact hc.elim (h.isOver (s := "@") (by decide) c) (hname c)
  simp only [Header.directive, over_cons_iff]
  refine ⟨h.isOver (by decide), hsign, h.over_parenthesized fun a ha => ?_⟩
  have ha := allOver_flatMap_iff.mp hvalues a ha
  simp only [AllOver, Argument.writtenTexts, List.forall_mem_cons] at ha
  simp only [over_cons_iff]
  exact ⟨ha.1, h.isOver (by decide), ha.2.1, .nil⟩

theorem over_typeCondition (h : HoldsPlain letters) {type : Option String}
    (ht : ∀ s ∈ type, Text.IsOver letters s) : Over letters (Header.typeCondition term type) := by
  cases type with
  | none => exact .nil
  | some type =>
      simp only [Header.typeCondition, over_append_iff, over_cons_iff]
      exact ⟨⟨h.isOver (by decide), h.isOver (by decide), h.isOver (by decide), .nil⟩,
        over_highlight (ht type rfl)⟩

theorem over_title (h : HoldsPlain letters) {head : Head} (hh : AllOver letters head.texts)
    (isDefinition : Bool) : Over letters (Header.title head isDefinition term) := by
  obtain ⟨hname, halias, htype, -, -, -⟩ := Head.allOver_texts_iff.mp hh
  have hgiven : Text.IsOver letters (head.name.getD "") := Text.isOver_getD hname
  unfold Header.title
  split
  · refine over_append_iff.mpr ⟨over_highlight ?_, ?_⟩
    · apply h.isOver
      cases head.operationType with
      | none => rfl
      | some type => cases type <;> decide
    · split
      · next name hsome =>
          exact over_cons_iff.mpr ⟨h.isOver (by decide), over_highlight (hname name hsome)⟩
      · exact .nil
  · split
    · simp only [over_append_iff, over_cons_iff, List.cons_append]
      exact ⟨h.isOver (by decide), h.isOver (by decide), over_highlight hgiven,
        h.over_typeCondition htype⟩
    · exact over_cons_iff.mpr ⟨h.isOver (by decide), over_highlight hgiven⟩
  · exact over_cons_iff.mpr ⟨h.isOver (by decide), h.over_typeCondition htype⟩
  · refine over_append_iff.mpr ⟨?_, over_highlight hgiven⟩
    split
    · next name hsome =>
        exact over_append_iff.mpr ⟨over_highlight (halias name hsome),
          over_cons_iff.mpr ⟨h.isOver (by decide), .nil⟩⟩
    · exact .nil

theorem over_brace (h : HoldsPlain letters) (hasChildren isOpen : Bool) :
    Over letters (Header.brace hasChildren isOpen) := by
  cases hasChildren with
  | false => exact .nil
  | true =>
      refine over_cons_iff.mpr ⟨h.isOver (by decide), over_cons_iff.mpr ⟨?_, .nil⟩⟩
      cases isOpen <;> exact h.isOver (by decide)

theorem over_header (h : HoldsPlain letters) {head : Head} (hh : AllOver letters head.texts)
    (isDefinition hasChildren isOpen : Bool) :
    Over letters (head.header isDefinition hasChildren isOpen term) := by
  obtain ⟨-, -, -, hvariables, harguments, hdirectives⟩ := Head.allOver_texts_iff.mp hh
  simp only [Head.header, over_append_iff, and_assoc]
  refine ⟨h.over_title hh isDefinition,
    h.over_parenthesized fun v hv => h.over_variableDefinition (hvariables v hv),
    h.over_parenthesized fun a ha => h.over_argument (harguments a ha), ?_,
    h.over_brace hasChildren isOpen⟩
  intro c hc
  rw [chars, List.flatMap_assoc, List.mem_flatMap] at hc
  obtain ⟨d, hd, hc⟩ := hc
  exact h.over_directive (hdirectives d hd) c hc

end HoldsPlain

/-! Blank characters in a document. -/

namespace Document

/-- A character that can be in a row of the document: if it is blank and not a plain blank, it
stands in a literal. -/
def Letter (text : String) (c : Char) : Prop :=
  Text.isBlank c = true → c ≠ ' ' → ∃ l ∈ tokenize text, Token.isLiteral l = true ∧ c ∈ l.toList

theorem holdsPlain_letter (text : String) : HoldsPlain (Letter text) := by
  rintro c (hc | rfl) hblank hne
  · rw [hc] at hblank
    contradiction
  · contradiction

open Token in
/-- Only literals have blank characters in them. -/
theorem allOver_tokenize (text : String) : AllOver (Letter text) (tokenize text) := by
  intro t ht c hc hblank _
  refine ⟨t, ht, ?_, hc⟩
  cases hu : isUnterminated t with
  | true =>
      rw [isUnterminated, Bool.and_eq_true] at hu
      exact hu.1
  | false =>
      have hseparator : isSeparator c = true := by rw [isSeparator, hblank, Bool.or_true]
      rcases isComplete_of_mem_tokenize ht hu with ⟨d, hd, rfl⟩ | hword | hclosed
      · obtain rfl : c = d := by simpa using hc
        rw [not_isSeparator_of_isPunctuation hd] at hseparator
        contradiction
      · have hw := hword.2 c hc
        rw [isWordChar_of_isSeparator hseparator] at hw
        contradiction
      · exact hclosed.isLiteral

theorem over_forest_parse (text : String) : (parse text).forest.Over (Letter text) :=
  Definitions.over_readFrom (holdsPlain_letter text ' ' (.inr rfl)) 0 (allOver_tokenize text)

end Document

theorem Row.over_text {letters : Char → Prop} (hl : HoldsPlain letters) {f : Forest Head}
    (hf : f.Over letters) {t : Toolbar} {o : Overrides} {term : Option String} {r : Row}
    (hr : r ∈ ofForest f t o term) : Text.IsOver letters r.text := by
  obtain ⟨path, u, hu, -, rfl⟩ := mem_ofForest.mp hr
  rw [Forest.markMatches, Forest.at?_markUp, Option.map_eq_some_iff] at hu
  obtain ⟨n, hn, rfl⟩ := hu
  have hroot : n.root ∈ f.preorder :=
    Forest.preorder_subset_of_at? hn (by simp [Tree.preorder])
  intro c hc
  rw [Row.toList_text] at hc
  exact hl.over_header (hf n.root hroot) _ _ _ c hc

/-! Counting line breaks. -/

theorem Text.count_expandTabs (column : Nat) (cs : List Char) :
    (expandTabs column cs).count '\n' = cs.count '\n' := by
  fun_induction expandTabs column cs with
  | case1 => rfl
  | case2 column cs width ih => simp [ih, List.count_replicate]
  | case3 column cs _ ih => simp [ih]
  | case4 column c cs _ hc ih => simp [ih, hc]

namespace Layout

open Console

theorem breaksLines_printLine : BreaksLines printLine := by
  intro t
  rw [printLine, String.toList_append, String.toList_ofList, List.count_append,
    Text.count_expandTabs]
  rfl

theorem count_join_map {print : StyledText → String} (h : BreaksLines print)
    (ts : List StyledText) :
    (String.join (ts.map print)).toList.count '\n' =
      ts.length + (ts.flatMap fun t => t.plain.toList).count '\n' := by
  induction ts with
  | nil => rfl
  | cons t ts ih =>
      rw [List.map_cons, String.join_cons, String.toList_append, List.count_append, h, ih,
        List.flatMap_cons, List.count_append, List.length_cons]
      omega

/-- Characters that a terminal acts on are dropped, but a line break is not among them. -/
theorem count_visible (p : Piece) : p.visible.count '\n' = p.text.toList.count '\n' :=
  List.count_filter (by decide)

theorem count_plain_rowText (s : Settings) (indented : Bool) (r : Row) :
    (rowText s indented r).plain.toList.count '\n' = r.text.toList.count '\n' := by
  have hlead : (lead s indented r).count '\n' = 0 := by
    have hmarkers : openMarker.toList.count '\n' = 0 ∧ closedMarker.toList.count '\n' = 0 ∧
        leafMarker.toList.count '\n' = 0 := by decide
    obtain ⟨hopen, hclosed, hleaf⟩ := hmarkers
    cases indented <;> cases hc : r.hasChildren <;> cases ho : r.isOpen <;>
      simp [lead, List.count_replicate, hc, ho, hopen, hclosed, hleaf]
  rw [(shows_rowText s indented r).plain, List.count_append, hlead, Nat.zero_add]
  exact List.count_filter (by decide)

theorem count_plain_closingLine (s : Settings) (depth : Nat) :
    (closingLine s depth).plain.toList.count '\n' = 0 := by
  simp [StyledText.toList_plain, closingLine, count_visible, blanks, List.count_replicate]

/-- Closing lines have no line breaks of their own. -/
theorem count_lines (s : Settings) (ls : List Line) :
    (ls.flatMap fun l => (l.styled s).plain.toList).count '\n' =
      ((ls.filterMap Line.row?).flatMap fun r => r.text.toList).count '\n' := by
  induction ls with
  | nil => rfl
  | cons l ls ih =>
      rw [List.flatMap_cons, List.count_append, ih]
      cases l with
      | row r =>
          rw [List.filterMap_cons_some (f := Line.row?) (b := r) rfl, List.flatMap_cons,
            List.count_append, Line.styled, count_plain_rowText]
      | closing depth =>
          rw [List.filterMap_cons_none (f := Line.row?) rfl, Line.styled, count_plain_closingLine,
            Nat.zero_add]

/-- The row has a closing line behind it. -/
def isClosed (r : Row) : Bool :=
  r.hasChildren && r.isOpen

/-- Nested lines are the rows, and a closing line for each open one. -/
theorem Line.Nested.length_eq {ls : List Line} (h : Line.Nested ls) :
    ls.length = (ls.filterMap Line.row?).length + (ls.filterMap Line.row?).countP isClosed := by
  induction h with
  | nil => rfl
  | @plain r ls shut _ ih =>
      have hr : ¬ isClosed r = true := by
        rw [isClosed, shut]
        decide
      rw [List.filterMap_cons_some (f := Line.row?) (b := r) rfl, List.countP_cons_of_neg hr]
      simp only [List.length_cons]
      omega
  | @block r inside ls opens _ _ ihi ihr =>
      have hr : isClosed r = true := opens
      rw [List.filterMap_cons_some (f := Line.row?) (b := r) rfl, List.countP_cons_of_pos hr,
        List.filterMap_append, List.filterMap_cons_none (f := Line.row?) rfl, List.countP_append]
      simp only [List.length_cons, List.length_append]
      omega

/-- A line for every row, one more for every open row, and one more for every line break in
the text of a row. -/
theorem count_join_lines {print : StyledText → String} (h : BreaksLines print) (s : Settings)
    (rows : List Row) :
    (String.join ((lines s rows).map print)).toList.count '\n' =
      rows.length + rows.countP isClosed + (rows.flatMap fun r => r.text.toList).count '\n' := by
  have hrows : (order rows).filterMap Line.row? = rows := filterMap_row?_orderFrom [] rows
  have hlength := (nested_order rows).length_eq
  have hcount := count_lines s (order rows)
  rw [hrows] at hlength hcount
  rw [count_join_map h, lines_eq_map, List.length_map, List.flatMap_map, hlength, hcount]

end Layout

/-- Only a row with something below it is open. -/
theorem Row.isClosed_of_mem_ofForest {f : Forest Head} {t : Toolbar} {o : Overrides}
    {term : Option String} {r : Row} (h : r ∈ ofForest f t o term) :
    Layout.isClosed r = r.isOpen := by
  obtain ⟨path, u, -, -, rfl⟩ := mem_ofForest.mp h
  simp [Layout.isClosed, ofTree]

namespace Document

/-- The printed lines of a document are its rows, the braces of its open rows, and as many more
as there are line breaks in the texts of rows. So a row is a single line unless its text has a
line break, and that comes from a literal. A console of another kind prints as many lines, if
it breaks them as a text does. -/
theorem printOutline_lineBreaks (text : String) (t : Toolbar) (o : Overrides)
    (term : Option String) (s : Settings) (label : String) :
    let rows := Row.ofForest (parse text).forest t o term
    let printed := (Console.printOutline s false label rows).toList.count '\n'
    let wanted := rows.length + rows.countP (·.isOpen)
    printed = wanted + (rows.flatMap fun r => r.text.toList).count '\n' ∧
      (printed = wanted ↔ ∀ r ∈ rows, '\n' ∉ r.text.toList) ∧
      (∀ r ∈ rows, ∀ c ∈ r.text.toList, Letter text c) ∧
      Console.BreaksLines Console.printLine ∧
      ∀ print, Console.BreaksLines print →
        (String.join ((Layout.lines s rows).map print)).toList.count '\n' = printed := by
  intro rows printed wanted
  have hopen : rows.countP Layout.isClosed = rows.countP (·.isOpen) :=
    List.countP_congr fun r hr => by rw [Row.isClosed_of_mem_ofForest hr]
  have hcount {print : StyledText → String} (h : Console.BreaksLines print) :
      (String.join ((Layout.lines s rows).map print)).toList.count '\n' =
        wanted + (rows.flatMap fun r => r.text.toList).count '\n' := by
    rw [Layout.count_join_lines h, hopen]
  have hprinted : printed = wanted + (rows.flatMap fun r => r.text.toList).count '\n' :=
    hcount Layout.breaksLines_printLine
  refine ⟨hprinted, ?_, fun r hr => ?_, Layout.breaksLines_printLine, fun print h => ?_⟩
  · rw [hprinted, Nat.add_eq_left, List.count_eq_zero, List.mem_flatMap]
    simp only [not_exists, not_and]
  · exact Row.over_text (holdsPlain_letter text) (over_forest_parse text) hr
  · rw [hcount h, hprinted]

/-- A console that keeps tabs breaks the line where the literal does. -/
theorem printOutline_lineBreaks_withTabs :
    let text := "\x7b a(x: \"b\nc\td\") \x7d"
    let rows := Row.ofForest (parse text).forest {} {} none
    let s := Settings.ofDefaults {}
    let print (t : StyledText) : String := t.plain ++ "\n"
    Console.BreaksLines print ∧
      (String.join ((Layout.lines s rows).map print)).toList.count '\n' = 4 ∧
      ∃ r ∈ rows, '\n' ∈ r.text.toList ∧ Letter text '\n' := by
  intro text rows s print
  have hbreaks : Console.BreaksLines print := by
    intro t
    rw [String.toList_append, List.count_append]
    rfl
  obtain ⟨hcount, -, hletters, -, hprint⟩ := printOutline_lineBreaks text {} {} none s ""
  obtain ⟨r, hr, hbroken⟩ : ∃ r ∈ rows, '\n' ∈ r.text.toList := by decide +kernel
  refine ⟨hbreaks, ?_, r, hr, hbroken, hletters r hr '\n' hbroken⟩
  rw [hprint print hbreaks, hcount]
  decide +kernel

/-- A line break in a literal breaks the line of its row. -/
theorem printOutline_brokenLiteral :
    let text := "\x7b a(x: \"b\nc\") \x7d"
    let rows := Row.ofForest (parse text).forest {} {} none
    let printed := Console.printOutline (Settings.ofDefaults {}) false "" rows
    printed = "▾ query \x7b\n    a(x: \"b\nc\")\n  \x7d\n" ∧
      printed.toList.count '\n' ≠ rows.length + rows.countP (·.isOpen) := by
  decide +kernel

end Document

end QueryOutline
