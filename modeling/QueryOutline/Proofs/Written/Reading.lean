import QueryOutline.Grammar.Named
import QueryOutline.Proofs.Written.Brackets

/-!
Reading a written document. Every rule of the grammar reads back what the tokens
spell and stops right behind them, whatever follows that cannot continue them.
A definition ends in a brace of its own, so nothing can continue it, and reading
a document in front of other tokens leaves the reading of those as it is.
-/

namespace QueryOutline

namespace Rule

variable {α β : Type}

/-- Entries up to a closing token, where each entry needs to know only that what
follows cannot continue it. -/
theorem readUntil_flatMap {closing : Token} {item : Token → Rule (Option β)}
    {first : α → Token} {others : α → List Token} {node : α → β} {Ends : List Token → Prop}
    (hfirst : ∀ a, first a ≠ closing)
    (hread : ∀ a ts, Ends ts → (item (first a)).read (others a ++ ts) = ⟨some (node a), ts⟩)
    (hclosing : ∀ ts, Ends (closing :: ts))
    (hnext : ∀ a ts, Ends (first a :: (others a ++ ts))) (as : List α) (ts : List Token) :
    readUntil closing item (as.flatMap (fun a => first a :: others a) ++ closing :: ts) =
      ⟨as.map node, ts⟩ := by
  induction as with
  | nil => exact readUntil_closing closing item ts
  | cons a as ih =>
      have hends : Ends (as.flatMap (fun a => first a :: others a) ++ closing :: ts) := by
        cases as with
        | nil => exact hclosing ts
        | cons b bs =>
            simpa only [List.flatMap_cons, List.cons_append, List.append_assoc] using
              hnext b (bs.flatMap (fun a => first a :: others a) ++ closing :: ts)
      simp only [List.flatMap_cons, List.cons_append, List.append_assoc]
      rw [readUntil_cons (hfirst a) (hread a _ hends), ih]
      rfl

end Rule

namespace Written

open Rule

/-! Values and arguments. -/

/-- What can stand behind a value: the end of the arguments, or the next pair. -/
inductive EndsValue : List Token → Prop where
  | closing (ts : List Token) : EndsValue (")" :: ts)
  | pair (name : Name) (ts : List Token) : EndsValue (name.text :: ":" :: ts)

theorem EndsValue.head?_ne_colon {ts : List Token} (h : EndsValue ts) :
    ts.head? ≠ some ":" := by
  cases h with
  | closing => simp
  | pair n _ => simpa using n.text_ne (by decide)

theorem EndsValue.splitValue {ts : List Token} (h : EndsValue ts) :
    splitValue 0 ts = ([], ts) := by
  cases h with
  | closing => rfl
  | pair n ts => simp [QueryOutline.splitValue, bracketWeight_eq_zero n.isBracket_text]

/-- Outside brackets a token belongs to the value unless it ends the arguments or
has a colon behind it. -/
theorem splitValue_cons {t : Token} {ts : List Token} (hb : isBracket t = false)
    (hp : t ≠ ")") (hc : ts.head? ≠ some ":") :
    splitValue 0 (t :: ts) = (t :: (splitValue 0 ts).1, (splitValue 0 ts).2) := by
  simp [splitValue, bracketWeight_eq_zero hb, hp, hc]

/-- The brackets of a value are closed at its end, and what stands there ends it. -/
theorem Value.splitValue_tokens (v : Value) {ts : List Token} (h : EndsValue ts) :
    splitValue 0 (v.tokens ++ ts) = (v.tokens, ts) := by
  have hc := h.head?_ne_colon
  cases v with
  | scalar s =>
      have hp : s.text ≠ ")" := by
        have hs : s.text ∉ [")"] := s.text_notMem (by decide)
        simpa using hs
      simp only [tokens, List.cons_append, List.nil_append]
      rw [splitValue_cons s.isBracket_text hp hc, h.splitValue]
  | variableName n =>
      have hn : (n.text :: ts).head? ≠ some ":" := by simpa using n.text_ne (by decide)
      simp only [tokens, List.cons_append, List.nil_append]
      rw [splitValue_cons (by decide) (by decide) hn,
        splitValue_cons n.isBracket_text (n.text_ne (by decide)) hc, h.splitValue]
  | list items =>
      have hi := items.bracketed_tokens.splitValue_append Int.zero_lt_one ("]" :: ts)
      simp [tokens, splitValue, bracketWeight, hi, hc, h.splitValue]
  | object members =>
      have hm := members.bracketed_tokens.splitValue_append Int.zero_lt_one ("\x7d" :: ts)
      simp [tokens, splitValue, bracketWeight, hm, hc, h.splitValue]

/-- A value is read as its joined tokens. -/
theorem Value.read_tokens (v : Value) {ts : List Token} (h : EndsValue ts) :
    Rule.value.read (v.tokens ++ ts) = ⟨joinValue v.tokens, ts⟩ := by
  simp [Rule.value, valueTokens, v.splitValue_tokens h]

theorem Argument.read_tokens (a : Argument) {ts : List Token} (h : EndsValue ts) :
    (argument a.name.text).read (":" :: (a.value.tokens ++ ts)) = ⟨some a.node, ts⟩ := by
  simp [argument, Argument.node, a.value.read_tokens h]

theorem read_arguments (as : List Argument) {ts : List Token} (h : ts.head? ≠ some "(") :
    arguments.read (parenthesized Argument.tokens as ++ ts) = ⟨as.map Argument.node, ts⟩ := by
  cases as with
  | nil => simp [arguments, parenthesized, read_skip_of_ne h]
  | cons a as =>
      have hread : readUntil ")" argument ((a :: as).flatMap Argument.tokens ++ ")" :: ts) =
          ⟨(a :: as).map Argument.node, ts⟩ :=
        readUntil_flatMap (fun a => a.name.text_ne (by decide))
          (fun a ts h => a.read_tokens h) EndsValue.closing (fun a ts => .pair a.name _)
          (a :: as) ts
      simp only [arguments, parenthesized, List.cons_append, List.append_assoc, read_bind,
        read_skip_cons_self, if_true, read_manyUntil]
      exact hread

/-! Directives and fields. -/

theorem read_directives (ds : List Directive) {ts : List Token} (hp : ts.head? ≠ some "(")
    (hm : ts.head? ≠ some "@") :
    directives.read (ds.flatMap Directive.tokens ++ ts) = ⟨ds.map Directive.node, ts⟩ := by
  rw [directives, read_manyMarked]
  induction ds with
  | nil => exact readMarked_of_ne hm
  | cons d ds ih =>
      have hds : (ds.flatMap Directive.tokens ++ ts).head? ≠ some "(" := by
        cases ds with
        | nil => exact hp
        | cons => simp [Directive.tokens]
      have hd := read_arguments d.arguments hds
      simp only [List.flatMap_cons, Directive.tokens, List.cons_append, List.append_assoc]
      rw [readMarked, if_pos rfl]
      simp [hd, ih, Directive.node]

theorem head?_parenthesized_ne {α : Type} (spell : α → List Token) (as : List α) {t : Token}
    {ts : List Token} (ht : t ≠ "(") (h : ts.head? ≠ some t) :
    (parenthesized spell as ++ ts).head? ≠ some t := by
  cases as with
  | nil => exact h
  | cons => simpa [parenthesized] using ht.symm

theorem head?_directives_ne (ds : List Directive) {t : Token} {ts : List Token} (ht : t ≠ "@")
    (h : ts.head? ≠ some t) : (ds.flatMap Directive.tokens ++ ts).head? ≠ some t := by
  cases ds with
  | nil => exact h
  | cons => simpa [Directive.tokens] using ht.symm

/-- A field takes its selection set from what stands behind its own tokens. -/
theorem Field.read_tokens (f : Field) (selections : Rule (Forest Head)) {ts : List Token}
    (hc : ts.head? ≠ some ":") (hp : ts.head? ≠ some "(") (hm : ts.head? ≠ some "@") :
    (fieldHere selections).read (f.tokens ++ ts) =
      ⟨⟨f.head, ((selectionSet selections).read ts).result⟩,
        ((selectionSet selections).read ts).rest⟩ := by
  obtain ⟨aliasName, name, args, ds⟩ := f
  have hd := read_directives ds hp hm
  have ha := read_arguments args (head?_directives_ne ds (by decide) hp)
  have hs := head?_parenthesized_ne Argument.tokens args (by decide)
    (head?_directives_ne ds (by decide) hc)
  cases aliasName with
  | none => simp [Field.tokens, label, fieldHere, field, read_skip_of_ne hs, ha, hd, head]
  | some a => simp [Field.tokens, label, fieldHere, field, ha, hd, head]

/-! Selections. -/

theorem Name.attachedWord?_text (n : Name) : attachedWord? n.text = none := by
  have hn := n.isName_text
  unfold attachedWord?
  split
  · next rest h =>
      simp only [isName, h, Bool.and_eq_true] at hn
      exact absurd hn.1 (by decide)
  · rfl

theorem attachedWord?_dots_append (s : String) : attachedWord? ("..." ++ s) = some s := by
  simp [attachedWord?]

/-- A selection that begins with a name is a field. -/
theorem Field.selectionHere_tokens (f : Field) (selections : Rule (Forest Head))
    (ts : List Token) :
    (selectionHere selections).read (f.tokens ++ ts) =
      (fieldHere selections).read (f.tokens ++ ts) := by
  obtain ⟨aliasName, name, args, ds⟩ := f
  cases aliasName with
  | none => simp [Field.tokens, label, selectionHere, selection, fieldHere,
      name.attachedWord?_text]
  | some a => simp [Field.tokens, label, selectionHere, selection, fieldHere,
      a.attachedWord?_text]

/-- An inline fragment takes its selection set from what stands behind its
opening. -/
theorem Opening.read_tokens (o : Opening) (selections : Rule (Forest Head))
    (ts : List Token) :
    (selectionHere selections).read (o.tokens ++ "\x7b" :: ts) =
      ⟨⟨o.head, ((selectionSet selections).read ("\x7b" :: ts)).result⟩,
        ((selectionSet selections).read ("\x7b" :: ts)).rest⟩ := by
  have hd : attachedWord? "..." = some "" := attachedWord?_dots_append ""
  cases o with
  | bare =>
      have ho : ("\x7b" :: ts).head? ≠ some "on" := by simp
      simp [tokens, selectionHere, selection, hd, spread, read_skip_of_ne ho, head]
  | apart n => simp [tokens, selectionHere, selection, hd, spread, inlineFragment, head]
  | attached n =>
      have ha : attachedWord? "...on" = some "on" := attachedWord?_dots_append "on"
      simp [tokens, selectionHere, selection, ha, spread, inlineFragment, head]

/-- What stands behind a selection does not continue it. -/
def EndsSelection (ts : List Token) : Prop :=
  ∀ t ∈ [":", "(", "@", "\x7b"], ts.head? ≠ some t

/-- The first token of a selection continues no other one, and closes no block. -/
def BeginsSelection (t : Token) : Prop :=
  t ∉ [":", "(", "@", "\x7b", "\x7d"]

theorem Name.beginsSelection_text (n : Name) : BeginsSelection n.text :=
  n.text_notMem (by decide)

theorem beginsSelection_dots_append (s : String) : BeginsSelection ("..." ++ s) :=
  dots_append_notMem s (by decide)

/-- A selection can be told from the end of the one before it by its first token. -/
theorem Selection.tokens_eq_cons (s : Selection) :
    ∃ t us, s.tokens = t :: us ∧ BeginsSelection t := by
  have hf (f : Field) (ts : List Token) : ∃ t us, f.tokens ++ ts = t :: us ∧ BeginsSelection t := by
    obtain ⟨aliasName, name, args, ds⟩ := f
    cases aliasName with
    | none => exact ⟨name.text, _, rfl, name.beginsSelection_text⟩
    | some a => exact ⟨a.text, _, rfl, a.beginsSelection_text⟩
  cases s with
  | leaf f => simpa [tokens] using hf f []
  | field f b => exact hf f _
  | spread isAttached n _ =>
      cases isAttached with
      | true => exact ⟨_, [], rfl, beginsSelection_dots_append n.text⟩
      | false => exact ⟨_, _, rfl, beginsSelection_dots_append ""⟩
  | inlineFragment o b =>
      cases o with
      | bare | apart _ => exact ⟨_, _, rfl, beginsSelection_dots_append ""⟩
      | attached _ => exact ⟨_, _, rfl, beginsSelection_dots_append "on"⟩

theorem endsSelection_closing (ts : List Token) : EndsSelection ("\x7d" :: ts) := by
  simp [EndsSelection]

theorem endsSelection_append (s : Selection) (ts : List Token) :
    EndsSelection (s.tokens ++ ts) := by
  obtain ⟨t, us, hs, ht⟩ := s.tokens_eq_cons
  intro u hu
  have htu : t ≠ u := by
    rintro rfl
    exact ht (List.mem_append_left ["\x7d"] hu)
  simpa [hs] using htu

theorem Block.endsSelection_append (b : Block) (ts : List Token) :
    EndsSelection (b.tokens ++ ts) := by
  cases b with
  | last s => exact Written.endsSelection_append s ts
  | cons s b => simpa [tokens] using Written.endsSelection_append s (b.tokens ++ ts)

def item (levels : Nat) (first : Token) : Rule (Option Node) :=
  some <$> selection (selections levels) first

theorem readUntil_selection {s : Selection} {levels : Nat} {ts : List Token}
    (h : (selectionHere (selections levels)).read (s.tokens ++ ts) = ⟨s.node levels, ts⟩) :
    readUntil "\x7d" (item levels) (s.tokens ++ ts) =
      ⟨s.node levels :: (readUntil "\x7d" (item levels) ts).result,
        (readUntil "\x7d" (item levels) ts).rest⟩ := by
  obtain ⟨t, us, hs, ht⟩ := s.tokens_eq_cons
  rw [hs, List.cons_append] at h ⊢
  have hread : (selection (selections levels) t).read (us ++ ts) = ⟨s.node levels, ts⟩ := h
  have hc : t ≠ "\x7d" := by
    rintro rfl
    exact ht (by simp)
  refine readUntil_cons hc ?_
  simp [item, hread]

/-- A selection set is read to its own brace: its selections as long as there are
levels left, and stepped over otherwise. -/
theorem Block.read_selectionSet {b : Block} {ts : List Token}
    (h : ∀ levels, readUntil "\x7d" (item levels) (b.tokens ++ "\x7d" :: ts) =
      ⟨b.nodes levels, ts⟩) (levels : Nat) :
    (selectionSet (selections levels)).read ("\x7b" :: (b.tokens ++ "\x7d" :: ts)) =
      ⟨expanded (fun n => b.nodes n) levels, ts⟩ := by
  cases levels with
  | zero =>
      have ha := b.bracketed_tokens.afterBlock_append Int.zero_lt_one ("\x7d" :: ts)
      simp [selectionSet, selections, skipBlock, expanded, ha, afterBlock]
  | succ levels =>
      have hl := h levels
      unfold item at hl
      simp [selectionSet, selections, expanded, hl]

mutual

/-- A selection is read as its node, whatever stands behind it that does not go on with it. -/
theorem Selection.read_tokens (s : Selection) (levels : Nat) {ts : List Token}
    (h : EndsSelection ts) :
    (selectionHere (selections levels)).read (s.tokens ++ ts) = ⟨s.node levels, ts⟩ := by
  have hc := h ":" (by simp)
  have hp := h "(" (by simp)
  have hm := h "@" (by simp)
  have hb := h "\x7b" (by simp)
  cases s with
  | leaf f =>
      rw [Selection.tokens, f.selectionHere_tokens, f.read_tokens _ hc hp hm]
      simp [selectionSet, read_skip_of_ne hb, Selection.node]
  | field f b =>
      have hs := Block.read_selectionSet (fun n => b.readUntil_tokens n ts) levels
      simp only [Selection.tokens, List.append_assoc, List.cons_append, List.nil_append]
      rw [f.selectionHere_tokens, f.read_tokens _ (by simp) (by simp) (by simp), hs,
        Selection.node]
  | spread isAttached n hn =>
      have he : n.text ≠ "" := n.text_ne (by decide)
      have hl : n.text ≠ "\x7b" := n.text_ne (by decide)
      have ho : (n.text :: ts).head? ≠ some "on" := by simpa using hn
      cases isAttached with
      | true =>
          simp [Selection.tokens, selectionHere, selection, attachedWord?_dots_append, spread,
            hn, he, Selection.node]
      | false =>
          have hd : attachedWord? "..." = some "" := attachedWord?_dots_append ""
          simp [Selection.tokens, selectionHere, selection, hd, spread, read_skip_of_ne ho, hl,
            Selection.node]
  | inlineFragment o b =>
      have hs := Block.read_selectionSet (fun n => b.readUntil_tokens n ts) levels
      simp only [Selection.tokens, List.append_assoc, List.cons_append, List.nil_append]
      rw [o.read_tokens, hs, Selection.node]

theorem Block.readUntil_tokens (b : Block) (levels : Nat) (ts : List Token) :
    readUntil "\x7d" (item levels) (b.tokens ++ "\x7d" :: ts) = ⟨b.nodes levels, ts⟩ := by
  cases b with
  | last s =>
      have hs := s.read_tokens levels (endsSelection_closing ts)
      simp only [Block.tokens, Block.nodes]
      rw [readUntil_selection hs, readUntil_closing]
  | cons s b =>
      have hs := s.read_tokens levels (b.endsSelection_append ("\x7d" :: ts))
      simp only [Block.tokens, Block.nodes, List.append_assoc]
      rw [readUntil_selection hs, b.readUntil_tokens levels ts]

end

/-! Variable definitions. -/

theorem isBlank_eq_false_of_isNameStart_or_isDigit {c : Char}
    (h : (isNameStart c || c.isDigit) = true) : Text.isBlank c = false := by
  change (((decide (c.val ≥ 65 ∧ c.val ≤ 90) || decide (c.val ≥ 97) && decide (c.val ≤ 122)) ||
    c == '_') || decide (c.val ≥ 48) && decide (c.val ≤ 57)) = true at h
  simp only [Bool.or_eq_true, Bool.and_eq_true, decide_eq_true_eq, beq_iff_eq, ge_iff_le,
    UInt32.le_iff_toNat_le] at h
  rcases h with (h | rfl) | h
  · have hn : 65 ≤ c.toNat ∧ c.toNat ≤ 90 ∨ 97 ≤ c.toNat ∧ c.toNat ≤ 122 := h
    simp only [Text.isBlank, Bool.or_eq_false_iff, Bool.and_eq_false_iff,
      decide_eq_false_iff_not, beq_eq_false_iff_ne]
    omega
  · rfl
  · have hn : 48 ≤ c.toNat ∧ c.toNat ≤ 57 := h
    simp only [Text.isBlank, Bool.or_eq_false_iff, Bool.and_eq_false_iff,
      decide_eq_false_iff_not, beq_eq_false_iff_ne]
    omega

theorem Name.isBlank_eq_false (n : Name) : ∀ c ∈ n.text.toList, Text.isBlank c = false := by
  have hn := n.isName_text
  unfold isName at hn
  split at hn
  · next d ds h =>
      simp only [Bool.and_eq_true, List.all_eq_true] at hn
      intro c hc
      rw [h, List.mem_cons] at hc
      rcases hc with rfl | hc
      · exact isBlank_eq_false_of_isNameStart_or_isDigit (by simp [hn.1])
      · exact isBlank_eq_false_of_isNameStart_or_isDigit (hn.2 c hc)
  · contradiction

/-- The tokens of a type are names and marks. -/
theorem TypeName.mem_tokens (type : TypeName) {t : Token} (h : t ∈ type.tokens) :
    t ∈ ["[", "]", "!"] ∨ ∃ n : Name, t = n.text := by
  induction type with
  | named n => exact .inr ⟨n, by simpa [tokens] using h⟩
  | list type ih =>
      simp only [tokens, List.mem_cons, List.mem_append, List.not_mem_nil, or_false] at h
      rcases h with rfl | h | rfl
      · exact .inl (by decide)
      · exact ih h
      · exact .inl (by decide)
  | required type ih =>
      simp only [tokens, List.mem_append, List.mem_singleton] at h
      rcases h with h | rfl
      · exact ih h
      · exact .inl (by decide)

theorem TypeName.endsVariableType_eq_false (type : TypeName) :
    ∀ t ∈ type.tokens, endsVariableType t = false := by
  intro t ht
  have hm : ∀ t ∈ ["[", "]", "!"], endsVariableType t = false := by decide
  rcases type.mem_tokens ht with h | ⟨n, rfl⟩
  · exact hm t h
  · have hn : n.text ∉ [")", "=", "$"] := n.text_notMem (by decide)
    simpa [endsVariableType] using hn

theorem TypeName.isBlank_eq_false (type : TypeName) :
    ∀ c ∈ (String.join type.tokens).toList, Text.isBlank c = false := by
  intro c hc
  rw [String.toList_join, List.mem_flatMap] at hc
  obtain ⟨t, ht, hc⟩ := hc
  have hm : (["[", "]", "!"].all fun t => t.toList.all fun c => !Text.isBlank c) = true := by
    decide
  simp only [List.all_eq_true, Bool.not_eq_eq_eq_not, Bool.not_true] at hm
  rcases type.mem_tokens ht with h | ⟨n, rfl⟩
  · exact hm t h c hc
  · exact n.isBlank_eq_false c hc

/-- What can stand behind a variable definition: the end of the definitions, or the
next one. -/
inductive EndsVariable : List Token → Prop where
  | closing (ts : List Token) : EndsVariable (")" :: ts)
  | next (ts : List Token) : EndsVariable ("$" :: ts)

/-- No token of a type is one that ends a type. -/
theorem takeUntil_type (type : TypeName) {t : Token} (ht : endsVariableType t = true)
    (ts : List Token) :
    (takeUntil endsVariableType).read (type.tokens ++ t :: ts) = ⟨type.tokens, t :: ts⟩ := by
  have h : ∀ u ∈ type.tokens, (!endsVariableType u) = true := by
    intro u hu
    simp [type.endsVariableType_eq_false u hu]
  simp [takeUntil, List.takeWhile_append_of_pos h, List.dropWhile_append_of_pos h, ht]

theorem VariableDefinition.read_tokens (v : VariableDefinition) {ts : List Token}
    (h : EndsVariable ts) :
    (variableDefinition "$").read (v.tokens.tail ++ ts) = ⟨some v.node, ts⟩ := by
  obtain ⟨name, type, defaultValue⟩ := v
  have hj := Text.trim_eq_self type.isBlank_eq_false
  cases defaultValue with
  | none =>
      have he : ts.head? ≠ some "=" := by cases h <;> simp
      obtain ⟨t, us, rfl, ht⟩ : ∃ t us, ts = t :: us ∧ endsVariableType t = true := by
        cases h with
        | closing us => exact ⟨_, us, rfl, rfl⟩
        | next us => exact ⟨_, us, rfl, rfl⟩
      simp [tokens, variableDefinition, takeUntil_type type ht, read_skip_of_ne he, hj, node]
  | some s =>
      have ht := takeUntil_type type (show endsVariableType "=" = true from rfl)
      simp [tokens, variableDefinition, ht, hj, node]

theorem read_variableDefinitions (vs : List VariableDefinition) {ts : List Token}
    (h : ts.head? ≠ some "(") :
    variableDefinitions.read (parenthesized VariableDefinition.tokens vs ++ ts) =
      ⟨vs.map VariableDefinition.node, ts⟩ := by
  cases vs with
  | nil => simp [variableDefinitions, parenthesized, read_skip_of_ne h]
  | cons v vs =>
      have hread : readUntil ")" variableDefinition
          ((v :: vs).flatMap VariableDefinition.tokens ++ ")" :: ts) =
          ⟨(v :: vs).map VariableDefinition.node, ts⟩ :=
        readUntil_flatMap (fun _ => by decide) (fun v ts h => v.read_tokens h)
          EndsVariable.closing (fun v ts => .next _) (v :: vs) ts
      simp only [variableDefinitions, parenthesized, List.cons_append, List.append_assoc,
        read_bind, read_skip_cons_self, if_true, read_manyUntil]
      exact hread

/-! Definitions and documents. -/

theorem Block.read_tokens (b : Block) (levels : Nat) (ts : List Token) :
    (selectionSet (selections levels)).read ("\x7b" :: (b.tokens ++ "\x7d" :: ts)) =
      ⟨b.forest levels, ts⟩ :=
  read_selectionSet (fun n => b.readUntil_tokens n ts) levels

/-- An operation without a name goes on with its variables or its block. -/
theorem read_takeUnless_name (name : Option Name) (vs : List VariableDefinition)
    (ts : List Token) :
    (takeUnless ["(", "\x7b"]).read (name.toList.map Name.text ++
        (parenthesized VariableDefinition.tokens vs ++ "\x7b" :: ts)) =
      ⟨name.map Name.text, parenthesized VariableDefinition.tokens vs ++ "\x7b" :: ts⟩ := by
  cases name with
  | none =>
      cases vs with
      | nil => exact read_takeUnless_of_mem (by decide) ts
      | cons v vs => exact read_takeUnless_of_mem (by decide) _
  | some n => exact read_takeUnless_of_notMem (n.text_notMem (by decide)) _

/-- A definition begins with a token that selects its rule, and the rule reads the
others. -/
theorem Definition.tokens_eq_cons (d : Definition) :
    ∃ t us rule, d.tokens = t :: us ∧ definition? t = some rule ∧
      ∀ ts, rule.read (us ++ ts) = ⟨d.node, ts⟩ := by
  cases d with
  | operation type name vs b =>
      refine ⟨type.text, _, Rule.operation type, rfl, ?_, ?_⟩
      · cases type <;> rfl
      · intro ts
        have hv : (("\x7b" :: (b.tokens ++ "\x7d" :: ts)) : List Token).head? ≠ some "(" := by
          simp
        simp [Rule.operation, read_takeUnless_name, read_variableDefinitions vs hv,
          b.read_tokens, node]
  | bare b =>
      refine ⟨"\x7b", _, bareQuery, rfl, rfl, ?_⟩
      intro ts
      have hb := b.read_tokens maxNestingDepth ts
      simp only [selectionSet, read_bind, read_skip_cons_self, if_true] at hb
      simp [bareQuery, hb, node]
  | fragment name type b =>
      refine ⟨"fragment", _, fragmentDefinition, rfl, rfl, ?_⟩
      intro ts
      have hn : type.text ∉ ["\x7b"] := type.text_notMem (by decide)
      have ht := read_takeUnless_of_notMem hn ("\x7b" :: (b.tokens ++ "\x7d" :: ts))
      simp [fragmentDefinition, ht, b.read_tokens, node]

/-- A definition is read first, and the rest behind it as a document of its own. -/
theorem Definition.parseDefinitions_append (d : Definition) (ts : List Token) :
    parseDefinitions (d.tokens ++ ts) =
      { forest := .cons d.node.root d.node.below (parseDefinitions ts).forest
        skipped := (parseDefinitions ts).skipped.map (· + d.tokens.length) } := by
  obtain ⟨t, us, rule, hd, ht, hr⟩ := d.tokens_eq_cons
  have hl : 0 + 1 + ((us ++ ts).length - ts.length) = 0 + d.tokens.length := by
    simp only [hd, List.length_append, List.length_cons]
    omega
  rw [parseDefinitions, parseDefinitions, hd, List.cons_append,
    Definitions.readFrom_cons_of_some ht (hr ts), hl, Definitions.readFrom_add, ← hd]

theorem forest_parseDefinitions_tokens (ds : List Definition) :
    (parseDefinitions (ds.flatMap Definition.tokens)).forest =
      .ofList (ds.map Definition.node) := by
  induction ds with
  | nil => simp [parseDefinitions, Definitions.readFrom, Forest.ofList]
  | cons d ds ih =>
      rw [List.flatMap_cons, d.parseDefinitions_append, ih]
      rfl

/-- Reading the tokens of a document in front of any others gives the nodes that
the document denotes and then whatever those others give. Nothing of the document
is skipped. -/
theorem parseDefinitions_tokens_append (ds : List Definition) (rest : List Token) :
    parseDefinitions (ds.flatMap Definition.tokens ++ rest) =
      { forest := .ofList (ds.map Definition.node ++ (parseDefinitions rest).forest.toList)
        skipped := (parseDefinitions rest).skipped.map
          (· + (ds.flatMap Definition.tokens).length) } := by
  induction ds with
  | nil => simp [Forest.ofList_toList]
  | cons d ds ih =>
      have hl (i : Nat) : i + (ds.flatMap Definition.tokens).length + d.tokens.length =
          i + (d.tokens.length + (ds.flatMap Definition.tokens).length) := by
        omega
      rw [List.flatMap_cons, List.append_assoc, d.parseDefinitions_append, ih]
      simp only [List.map_cons, List.cons_append, Forest.ofList, List.map_map, List.length_append,
        Function.comp_def, hl]

end Written

end QueryOutline
