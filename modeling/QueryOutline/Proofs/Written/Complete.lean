import QueryOutline.Proofs.Token.Lexeme
import QueryOutline.Proofs.Token.Spelling
import QueryOutline.Proofs.Written.Reading

/-!
The tokens of written documents. Names, scalars, three dots and the marks between them end by
themselves, so a value that was joined to a text is scanned into its tokens again.
-/

namespace QueryOutline

open Token

namespace Written

theorem isWordChar_of_isNameStart_or_isDigit {c : Char} (h : (isNameStart c || c.isDigit) = true) :
    isWordChar c = true := by
  have hmarks : (['{', '}', '(', ')', '[', ']', ':', '!', '$', '@'].all fun d =>
      !(isNameStart d || d.isDigit)) = true := by decide
  rw [isWordChar_iff]
  refine ⟨?_, ?_, ?_⟩
  · rw [isSeparator, isBlank_eq_false_of_isNameStart_or_isDigit h, Bool.or_false,
      beq_eq_false_iff_ne]
    rintro rfl
    revert h
    decide
  · rw [← Bool.not_eq_true]
    intro hp
    have hc := List.all_eq_true.mp hmarks c (isPunctuation_iff.mp hp)
    rw [h] at hc
    contradiction
  · rw [← Bool.not_eq_true]
    intro hq
    rcases isQuote_iff.mp hq with rfl | rfl
    · revert h
      decide
    · revert h
      decide

theorem Name.isWord (n : Name) : IsWord n.text := by
  refine ⟨n.text_ne (by decide), ?_⟩
  have hn := n.isName_text
  unfold isName at hn
  split at hn
  · next d ds h =>
      simp only [Bool.and_eq_true, List.all_eq_true] at hn
      intro c hc
      rw [h, List.mem_cons] at hc
      rcases hc with rfl | hc
      · exact isWordChar_of_isNameStart_or_isDigit (by simp [hn.1])
      · exact isWordChar_of_isNameStart_or_isDigit (hn.2 c hc)
  · contradiction

theorem Name.isComplete (n : Name) : IsComplete n.text :=
  .inr (.inl n.isWord)

/-- The check reads from the left, and all it has passed is guarded. -/
theorem exists_guarded_of_closesAtEnd {q : Char} {before cs : List Char} (hb : Guarded q before)
    (h : closesAtEnd q (before.getLast? == some '\\') cs = true) :
    ∃ body, before ++ cs = body ++ [q] ∧ Guarded q body ∧ body.getLast? ≠ some '\\' := by
  induction cs generalizing before with
  | nil => contradiction
  | cons c cs ih =>
      rw [closesAtEnd] at h
      split at h
      · next hc =>
          simp only [Bool.and_eq_true, decide_eq_true_eq, Bool.not_eq_true', beq_eq_false_iff_ne,
            ne_eq] at hc
          obtain ⟨rfl, hl⟩ := hc
          rw [List.isEmpty_iff.mp h]
          exact ⟨before, rfl, hb, hl⟩
      · next hc =>
          have hguard : Guarded q (before ++ [c]) := by
            refine guarded_concat_iff.mpr ⟨hb, fun heq => ?_⟩
            simpa [heq] using hc
          have hlast : ((before ++ [c]).getLast? == some '\\') = (c == '\\') := by simp
          rw [← hlast] at h
          simpa using ih hguard h

theorem isClosedLiteral_of_eq_true {t : Token} (h : isClosedLiteral t = true) :
    Token.IsClosedLiteral t := by
  unfold isClosedLiteral at h
  split at h
  · next q cs ht =>
      rw [Bool.and_eq_true] at h
      obtain ⟨body, hcs, hbody, hl⟩ := exists_guarded_of_closesAtEnd (.nil q) h.2
      rw [List.nil_append] at hcs
      exact ⟨q, body, h.1, hbody, hl, by rw [ht, hcs]⟩
  · contradiction

theorem isWord_iff {t : Token} : Written.isWord t = true ↔ Token.IsWord t := by
  rw [Written.isWord, Bool.and_eq_true, Bool.not_eq_true', ← Bool.not_eq_true,
    String.isEmpty_iff, List.all_eq_true]
  refine and_congr_right fun _ => forall₂_congr fun c _ => ?_
  simp [isWordChar_iff, and_assoc]

theorem Scalar.isComplete (s : Scalar) : IsComplete s.text := by
  have hs := s.isScalar_text
  rw [isScalar, Bool.or_eq_true] at hs
  rcases hs with h | h
  · exact .inr (.inl (isWord_iff.mp h))
  · exact .inr (.inr (isClosedLiteral_of_eq_true h))

theorem isComplete_dots : IsComplete "..." :=
  Scalar.isComplete ⟨"...", by decide⟩

theorem isWord_dots_append {t : Token} (h : Token.IsWord t) : Token.IsWord ("..." ++ t) := by
  have hdot : isWordChar '.' = true := by decide
  refine ⟨?_, ?_⟩
  · intro h
    have hl := congrArg String.toList h
    simp at hl
  · intro c hc
    simp only [String.toList_append, List.mem_append] at hc
    rcases hc with hc | hc
    · obtain rfl : c = '.' := by simpa using hc
      exact hdot
    · exact h.2 c hc

/-! Values and types. -/

mutual

def Value.scalars : Value → List Scalar
  | .scalar s => [s]
  | .variableName _ => []
  | .list items => items.scalars
  | .object members => members.scalars

def Values.scalars : Values → List Scalar
  | .nil => []
  | .cons first others => first.scalars ++ others.scalars

def Members.scalars : Members → List Scalar
  | .nil => []
  | .cons _ value others => value.scalars ++ others.scalars

end

/-- What holds of marks and of names. -/
structure HoldsOfSyntax (P : Token → Prop) : Prop where
  mark : ∀ t, IsMark t → P t
  name : ∀ n : Name, P n.text

theorem isComplete_syntax : HoldsOfSyntax IsComplete :=
  ⟨fun _ => .inl, Name.isComplete⟩

theorem HoldsOfSyntax.mark_of_mem {P : Token → Prop} (h : HoldsOfSyntax P) {t : Token}
    (ht : t ∈ ['{', '}', '(', ')', '[', ']', ':', '!', '$', '@'].map Char.toString) : P t :=
  h.mark t (isMark_of_mem ht)

mutual

/-- Apart from its scalars a value has only tokens of the syntax. -/
theorem Value.forall_mem_tokens {P : Token → Prop} (h : HoldsOfSyntax P) (v : Value)
    (hs : ∀ s ∈ v.scalars, P s.text) : ∀ t ∈ v.tokens, P t := by
  cases v with
  | scalar s => simpa [Value.tokens, Value.scalars] using hs
  | variableName n =>
      simp only [Value.tokens, List.forall_mem_cons]
      exact ⟨h.mark_of_mem (by decide), h.name n, by simp⟩
  | list items =>
      simp only [Value.tokens, List.forall_mem_cons, List.forall_mem_append]
      exact ⟨h.mark_of_mem (by decide), items.forall_mem_tokens h hs,
        h.mark_of_mem (by decide), by simp⟩
  | object members =>
      simp only [Value.tokens, List.forall_mem_cons, List.forall_mem_append]
      exact ⟨h.mark_of_mem (by decide), members.forall_mem_tokens h hs,
        h.mark_of_mem (by decide), by simp⟩

theorem Values.forall_mem_tokens {P : Token → Prop} (h : HoldsOfSyntax P) (vs : Values)
    (hs : ∀ s ∈ vs.scalars, P s.text) : ∀ t ∈ vs.tokens, P t := by
  cases vs with
  | nil => simp [Values.tokens]
  | cons v vs =>
      rw [Values.scalars, List.forall_mem_append] at hs
      rw [Values.tokens, List.forall_mem_append]
      exact ⟨v.forall_mem_tokens h hs.1, vs.forall_mem_tokens h hs.2⟩

theorem Members.forall_mem_tokens {P : Token → Prop} (h : HoldsOfSyntax P) (ms : Members)
    (hs : ∀ s ∈ ms.scalars, P s.text) : ∀ t ∈ ms.tokens, P t := by
  cases ms with
  | nil => simp [Members.tokens]
  | cons n v ms =>
      rw [Members.scalars, List.forall_mem_append] at hs
      simp only [Members.tokens, List.forall_mem_cons, List.forall_mem_append]
      exact ⟨h.name n, h.mark_of_mem (by decide), v.forall_mem_tokens h hs.1,
        ms.forall_mem_tokens h hs.2⟩

end

theorem Value.isComplete (v : Value) : ∀ t ∈ v.tokens, IsComplete t :=
  v.forall_mem_tokens isComplete_syntax fun s _ => s.isComplete

/-- The joined tokens of a value are scanned into the tokens again. -/
theorem Value.spells (v : Value) : Spells (joinValue v.tokens).toList v.tokens :=
  spells_joinValue v.isComplete

/-- The marks of a type keep its names apart without any blanks. -/
theorem TypeName.spells (type : TypeName) :
    Spells (String.join type.tokens).toList type.tokens := by
  rw [String.toList_join]
  induction type with
  | named n => exact .token n.isComplete .nil
  | list item ih =>
      have hopening : IsMark "[" := isMark_of_mem (by decide)
      have hclosing : IsMark "]" := isMark_of_mem (by decide)
      have h := (SpellsBehind.mark hopening (ih.behind hclosing.spellsBehind)).toSpells
      simpa [tokens] using h
  | required type ih =>
      have hmark : IsMark "!" := isMark_of_mem (by decide)
      simpa [tokens] using ih.behind hmark.spellsBehind

/-! Documents. -/

def Argument.scalars (a : Argument) : List Scalar :=
  a.value.scalars

def Field.scalars (f : Field) : List Scalar :=
  f.arguments.flatMap Argument.scalars ++
    f.directives.flatMap fun d => d.arguments.flatMap Argument.scalars

mutual

def Selection.scalars : Selection → List Scalar
  | .leaf field => field.scalars
  | .field field block => field.scalars ++ block.scalars
  | .spread .. => []
  | .inlineFragment _ block => block.scalars

def Block.scalars : Block → List Scalar
  | .last selection => selection.scalars
  | .cons first others => first.scalars ++ others.scalars

end

def Definition.scalars : Definition → List Scalar
  | .operation _ _ variableDefinitions block =>
      variableDefinitions.flatMap (fun v => v.defaultValue.toList) ++ block.scalars
  | .bare block | .fragment _ _ block => block.scalars

section

variable {P : Token → Prop} (h : HoldsOfSyntax P)

include h

theorem forall_mem_parenthesized {α : Type} {spell : α → List Token} {as : List α}
    (has : ∀ a ∈ as, ∀ t ∈ spell a, P t) : ∀ t ∈ parenthesized spell as, P t := by
  cases as with
  | nil => simp [parenthesized]
  | cons a as =>
      simp only [parenthesized, List.forall_mem_cons, List.forall_mem_append]
      refine ⟨h.mark_of_mem (by decide), fun t ht => ?_, h.mark_of_mem (by decide), by simp⟩
      obtain ⟨a, ha, ht⟩ := List.mem_flatMap.mp ht
      exact has a ha t ht

theorem TypeName.forall_mem_tokens (type : TypeName) : ∀ t ∈ type.tokens, P t := by
  intro t ht
  rcases type.mem_tokens ht with ht | ⟨n, rfl⟩
  · have hmarks : ∀ t ∈ ["[", "]", "!"],
        t ∈ ['{', '}', '(', ')', '[', ']', ':', '!', '$', '@'].map Char.toString := by decide
    exact h.mark_of_mem (hmarks t ht)
  · exact h.name n

theorem Argument.forall_mem_tokens (a : Argument) (hs : ∀ s ∈ a.scalars, P s.text) :
    ∀ t ∈ a.tokens, P t := by
  simp only [tokens, List.forall_mem_cons]
  exact ⟨h.name a.name, h.mark_of_mem (by decide), a.value.forall_mem_tokens h hs⟩

theorem VariableDefinition.forall_mem_tokens (v : VariableDefinition) (hequals : P "=")
    (hs : ∀ s ∈ v.defaultValue, P s.text) : ∀ t ∈ v.tokens, P t := by
  simp only [tokens, List.forall_mem_cons, List.forall_mem_append]
  refine ⟨h.mark_of_mem (by decide), h.name v.name, h.mark_of_mem (by decide),
    v.type.forall_mem_tokens h, ?_⟩
  cases hd : v.defaultValue with
  | none => simp
  | some d => simpa using ⟨hequals, hs d hd⟩

theorem forall_mem_arguments {as : List Argument}
    (hs : ∀ s ∈ as.flatMap Argument.scalars, P s.text) :
    ∀ t ∈ parenthesized Argument.tokens as, P t :=
  forall_mem_parenthesized h fun a ha =>
    a.forall_mem_tokens h fun s hsa => hs s (List.mem_flatMap.mpr ⟨a, ha, hsa⟩)

theorem Directive.forall_mem_tokens (d : Directive)
    (hs : ∀ s ∈ d.arguments.flatMap Argument.scalars, P s.text) : ∀ t ∈ d.tokens, P t := by
  simp only [tokens, List.forall_mem_cons]
  exact ⟨h.mark_of_mem (by decide), h.name d.name, forall_mem_arguments h hs⟩

theorem Field.forall_mem_tokens (f : Field) (hs : ∀ s ∈ f.scalars, P s.text) :
    ∀ t ∈ f.tokens, P t := by
  rw [scalars, List.forall_mem_append] at hs
  obtain ⟨hargs, hds⟩ := hs
  simp only [tokens, List.forall_mem_append]
  refine ⟨⟨?_, forall_mem_arguments h hargs⟩, fun t ht => ?_⟩
  · cases hlabel : f.aliasName with
    | none => simpa [label, hlabel] using h.name f.name
    | some a =>
        simp only [label, hlabel, List.forall_mem_cons]
        exact ⟨h.name a, h.mark_of_mem (by decide), h.name f.name, by simp⟩
  · obtain ⟨d, hd, ht⟩ := List.mem_flatMap.mp ht
    exact d.forall_mem_tokens h (fun s hsd => hds s (List.mem_flatMap.mpr ⟨d, hd, hsd⟩)) t ht

end

def Definition.front : Definition → List Token
  | .operation type name variableDefinitions _ =>
      type.text :: (name.toList.map Name.text ++
        parenthesized VariableDefinition.tokens variableDefinitions)
  | .bare _ => []
  | .fragment name type _ => ["fragment", name.text, "on", type.text]

def Definition.block : Definition → Block
  | .operation _ _ _ block | .bare block | .fragment _ _ block => block

/-- A definition is a front and a block in braces. -/
theorem Definition.tokens_eq (d : Definition) :
    d.tokens = d.front ++ "\x7b" :: (d.block.tokens ++ ["\x7d"]) := by
  cases d <;> simp [tokens, front, block]

theorem Definition.forall_mem_front {P : Token → Prop} (h : HoldsOfSyntax P) (hequals : P "=")
    (d : Definition) (hs : ∀ s ∈ d.scalars, P s.text) : ∀ t ∈ d.front, P t := by
  cases d with
  | operation type name vs b =>
      rw [scalars, List.forall_mem_append] at hs
      simp only [front, List.forall_mem_cons, List.forall_mem_append]
      refine ⟨?_, ?_, forall_mem_parenthesized h fun v hv => ?_⟩
      · cases type with
        | query => exact h.name ⟨"query", by decide⟩
        | mutation => exact h.name ⟨"mutation", by decide⟩
        | subscription => exact h.name ⟨"subscription", by decide⟩
      · cases name with
        | none => simp
        | some name => simpa using h.name name
      · refine v.forall_mem_tokens h hequals fun s hd => hs.1 s ?_
        exact List.mem_flatMap.mpr ⟨v, hv, Option.mem_toList.mpr hd⟩
  | bare b => simp [front]
  | fragment name type b =>
      simp only [front, List.forall_mem_cons]
      exact ⟨h.name ⟨"fragment", by decide⟩, h.name name, h.name ⟨"on", by decide⟩, h.name type,
        by simp⟩

theorem Opening.isComplete (o : Opening) : ∀ t ∈ o.tokens, IsComplete t := by
  cases o with
  | bare => simpa [tokens] using isComplete_dots
  | apart type =>
      simp only [tokens, List.forall_mem_cons]
      exact ⟨isComplete_dots, Name.isComplete ⟨"on", by decide⟩, type.isComplete, by simp⟩
  | attached type =>
      simp only [tokens, List.forall_mem_cons]
      have hon : IsComplete ("..." ++ "on") :=
        .inr (.inl (isWord_dots_append (Name.isWord ⟨"on", by decide⟩)))
      exact ⟨hon, type.isComplete, by simp⟩

theorem isComplete_braces {ts : List Token} (h : ∀ t ∈ ts, IsComplete t) :
    ∀ t ∈ "\x7b" :: (ts ++ ["\x7d"]), IsComplete t := by
  simp only [List.forall_mem_cons, List.forall_mem_append]
  exact ⟨.inl (isMark_of_mem (by decide)), h, .inl (isMark_of_mem (by decide)), by simp⟩

theorem Field.isComplete (f : Field) : ∀ t ∈ f.tokens, IsComplete t :=
  f.forall_mem_tokens isComplete_syntax fun s _ => s.isComplete

mutual

theorem Selection.isComplete (s : Selection) : ∀ t ∈ s.tokens, IsComplete t := by
  cases s with
  | leaf f => exact f.isComplete
  | field f b =>
      rw [Selection.tokens, List.forall_mem_append]
      exact ⟨f.isComplete, isComplete_braces b.isComplete⟩
  | spread isAttached n hn =>
      cases isAttached with
      | true => simpa [Selection.tokens] using .inr (.inl (isWord_dots_append n.isWord))
      | false =>
          simp only [Selection.tokens, Bool.false_eq_true, if_false, List.forall_mem_cons]
          exact ⟨isComplete_dots, n.isComplete, by simp⟩
  | inlineFragment o b =>
      rw [Selection.tokens, List.forall_mem_append]
      exact ⟨o.isComplete, isComplete_braces b.isComplete⟩

theorem Block.isComplete (b : Block) : ∀ t ∈ b.tokens, IsComplete t := by
  cases b with
  | last s => exact s.isComplete
  | cons s b =>
      rw [Block.tokens, List.forall_mem_append]
      exact ⟨s.isComplete, b.isComplete⟩

end

/-- No token of a written definition is an open literal. -/
theorem Definition.isComplete (d : Definition) : ∀ t ∈ d.tokens, IsComplete t := by
  have hequals : IsComplete "=" := Scalar.isComplete ⟨"=", by decide⟩
  rw [d.tokens_eq, List.forall_mem_append]
  exact ⟨d.forall_mem_front isComplete_syntax hequals fun s _ => s.isComplete,
    isComplete_braces d.block.isComplete⟩

end Written

end QueryOutline
