import QueryOutline.Proofs.Written

/-!
Brackets in written documents. Names and scalars are no punctuation, so the only
brackets among the tokens of a value or of a selection set are those that the
grammar puts in pairs. Counting depth therefore passes over such tokens as over
a whole, both where a value is split off and where a block is stepped over.
-/

namespace QueryOutline

namespace Written

theorem Name.text_notMem (n : Name) {ts : List Token} (h : ts.any isName = false) :
    n.text ∉ ts := by
  intro hm
  have hn := List.any_eq_false.mp h n.text hm
  exact hn n.isName_text

theorem Name.text_ne (n : Name) {t : Token} (h : isName t = false) : n.text ≠ t := by
  have hn : n.text ∉ [t] := n.text_notMem (by simp [h])
  simpa using hn

theorem Scalar.text_notMem (s : Scalar) {ts : List Token} (h : ts.any isScalar = false) :
    s.text ∉ ts := by
  intro hm
  have hs := List.any_eq_false.mp h s.text hm
  exact hs s.isScalar_text

/-- A word with three dots attached begins with a dot. -/
theorem dots_append_notMem (s : String) {ts : List Token}
    (h : ts.any (·.toList.head? == some '.') = false) : "..." ++ s ∉ ts := by
  intro hm
  have hs := List.any_eq_false.mp h _ hm
  simp at hs

def isBracket (t : Token) : Bool :=
  ["\x7b", "\x7d", "[", "]"].contains t

theorem isBracket_eq_false_iff {t : Token} :
    isBracket t = false ↔ t ∉ ["\x7b", "\x7d", "[", "]"] := by
  simp [isBracket]

theorem Name.isBracket_text (n : Name) : isBracket n.text = false :=
  isBracket_eq_false_iff.mpr (n.text_notMem (by decide))

theorem Scalar.isBracket_text (s : Scalar) : isBracket s.text = false :=
  isBracket_eq_false_iff.mpr (s.text_notMem (by decide))

theorem isBracket_dots_append (s : String) : isBracket ("..." ++ s) = false :=
  isBracket_eq_false_iff.mpr (dots_append_notMem s (by decide))

theorem bracketWeight_eq_zero {t : Token} (h : isBracket t = false) : bracketWeight t = 0 := by
  rw [isBracket_eq_false_iff] at h
  simp only [List.mem_cons, List.not_mem_nil, or_false, not_or] at h
  simp [bracketWeight, h]

/-- Every bracket has its partner, and pairs do not cross. -/
inductive Bracketed : List Token → Prop where
  | nil : Bracketed []
  | plain {t : Token} {ts : List Token} (h : isBracket t = false) (hts : Bracketed ts) :
      Bracketed (t :: ts)
  | braces {us ts : List Token} (hus : Bracketed us) (hts : Bracketed ts) :
      Bracketed ("\x7b" :: (us ++ "\x7d" :: ts))
  | squares {us ts : List Token} (hus : Bracketed us) (hts : Bracketed ts) :
      Bracketed ("[" :: (us ++ "]" :: ts))

namespace Bracketed

theorem append {us ts : List Token} (hus : Bracketed us) (hts : Bracketed ts) :
    Bracketed (us ++ ts) := by
  induction hus with
  | nil => exact hts
  | plain h _ ih => exact .plain h ih
  | braces hus _ _ ih => simpa using Bracketed.braces hus ih
  | squares hus _ _ ih => simpa using Bracketed.squares hus ih

theorem flatMap {α : Type} {spell : α → List Token} (h : ∀ a, Bracketed (spell a))
    (as : List α) : Bracketed (as.flatMap spell) := by
  induction as with
  | nil => exact .nil
  | cons a as ih => exact (h a).append ih

/-- Parentheses are not counted among the brackets. -/
theorem parenthesized {α : Type} {spell : α → List Token} (h : ∀ a, Bracketed (spell a))
    (as : List α) : Bracketed (parenthesized spell as) := by
  cases as with
  | nil => exact .nil
  | cons a as => exact .plain (by decide) ((flatMap h _).append (.plain (by decide) .nil))

/-- Inside brackets a value does not end before its brackets are closed. -/
theorem splitValue_append {us : List Token} (h : Bracketed us) {depth : Int} (hd : 0 < depth)
    (ts : List Token) :
    splitValue depth (us ++ ts) = (us ++ (splitValue depth ts).1, (splitValue depth ts).2) := by
  induction h generalizing depth ts with
  | nil => rfl
  | @plain t us ht _ ih =>
      have hw := bracketWeight_eq_zero ht
      have h0 : ¬ depth = 0 := by omega
      simp [splitValue, hw, h0, ih hd]
  | braces _ _ ihu iht | squares _ _ ihu iht =>
      have h0 : ¬ depth = 0 := by omega
      have h1 : ¬ depth + 1 = 0 := by omega
      have hi : 0 < depth + 1 := by omega
      have hc : depth + 1 + -1 = depth := by omega
      simp [splitValue, bracketWeight, h0, h1, hc, ihu hi, iht hd]

/-- A block that is stepped over does not end before its own brace. -/
theorem afterBlock_append {us : List Token} (h : Bracketed us) {depth : Int} (hd : 0 < depth)
    (ts : List Token) : afterBlock depth (us ++ ts) = afterBlock depth ts := by
  induction h generalizing depth ts with
  | nil => rfl
  | @plain t us ht _ ih =>
      rw [isBracket_eq_false_iff] at ht
      simp only [List.mem_cons, not_or] at ht
      simp [afterBlock, ht.1, ht.2.1, ih hd]
  | braces _ _ ihu iht =>
      have h1 : ¬ depth + 1 = 1 := by omega
      have hi : 0 < depth + 1 := by omega
      simp [afterBlock, h1, ihu hi, iht hd]
  | squares _ _ ihu iht => simp [afterBlock, ihu hd, iht hd]

end Bracketed

mutual

/-- The lists and objects inside a value close in the order they open. -/
theorem Value.bracketed_tokens (v : Value) : Bracketed v.tokens := by
  cases v with
  | scalar s => exact .plain s.isBracket_text .nil
  | variableName n => exact .plain (by decide) (.plain n.isBracket_text .nil)
  | list items => exact .squares items.bracketed_tokens .nil
  | object members => exact .braces members.bracketed_tokens .nil

theorem Values.bracketed_tokens (vs : Values) : Bracketed vs.tokens := by
  cases vs with
  | nil => exact .nil
  | cons v vs => exact v.bracketed_tokens.append vs.bracketed_tokens

theorem Members.bracketed_tokens (ms : Members) : Bracketed ms.tokens := by
  cases ms with
  | nil => exact .nil
  | cons n v ms =>
      exact .plain n.isBracket_text
        (.plain (by decide) (v.bracketed_tokens.append ms.bracketed_tokens))

end

theorem Argument.bracketed_tokens (a : Argument) : Bracketed a.tokens :=
  .plain a.name.isBracket_text (.plain (by decide) a.value.bracketed_tokens)

theorem Directive.bracketed_tokens (d : Directive) : Bracketed d.tokens :=
  .plain (by decide)
    (.plain d.name.isBracket_text (.parenthesized Argument.bracketed_tokens d.arguments))

theorem Field.bracketed_label (f : Field) : Bracketed f.label := by
  unfold Field.label
  cases f.aliasName with
  | none => exact .plain f.name.isBracket_text .nil
  | some a =>
      exact .plain a.isBracket_text (.plain (by decide) (.plain f.name.isBracket_text .nil))

theorem Field.bracketed_tokens (f : Field) : Bracketed f.tokens :=
  (f.bracketed_label.append (.parenthesized Argument.bracketed_tokens f.arguments)).append
    (.flatMap Directive.bracketed_tokens f.directives)

theorem Opening.bracketed_tokens (o : Opening) : Bracketed o.tokens := by
  cases o with
  | bare => exact .plain (by decide) .nil
  | apart n => exact .plain (by decide) (.plain (by decide) (.plain n.isBracket_text .nil))
  | attached n => exact .plain (by decide) (.plain n.isBracket_text .nil)

mutual

theorem Selection.bracketed_tokens (s : Selection) : Bracketed s.tokens := by
  cases s with
  | leaf f => exact f.bracketed_tokens
  | field f b => exact f.bracketed_tokens.append (.braces b.bracketed_tokens .nil)
  | spread isAttached n _ =>
      cases isAttached with
      | true => exact .plain (isBracket_dots_append n.text) .nil
      | false => exact .plain (by decide) (.plain n.isBracket_text .nil)
  | inlineFragment o b => exact o.bracketed_tokens.append (.braces b.bracketed_tokens .nil)

/-- Without its own braces a block is balanced as well. -/
theorem Block.bracketed_tokens (b : Block) : Bracketed b.tokens := by
  cases b with
  | last s => exact s.bracketed_tokens
  | cons s b => exact s.bracketed_tokens.append b.bracketed_tokens

end

end Written

end QueryOutline
