import Mathlib.Data.List.Induction
import QueryOutline.Proofs.Token.Scanning

/-!
The kinds of tokens: marks, words, closed literals and literals that are never closed.
Each is described by its characters alone, and a text that consists of one such token is
scanned into it.
-/

namespace QueryOutline

namespace Token

/-- Every delimiter among the characters has a backslash directly before it. -/
def Guarded (delimiter : Char) (cs : List Char) : Prop :=
  ∀ before after, cs = before ++ delimiter :: after → before.getLast? = some '\\'

def IsGap (s : String) : Prop :=
  ∀ c ∈ s.toList, isSeparator c = true

def IsMark (t : Token) : Prop :=
  ∃ c, isPunctuation c = true ∧ t = c.toString

def IsWord (t : Token) : Prop :=
  t ≠ "" ∧ ∀ c ∈ t.toList, isWordChar c = true

/-- A literal with its delimiters, of which the second one has no backslash before it. -/
def IsClosedLiteral (t : Token) : Prop :=
  ∃ delimiter cs, isQuote delimiter = true ∧ Guarded delimiter cs ∧
    cs.getLast? ≠ some '\\' ∧ t.toList = delimiter :: (cs ++ [delimiter])

/-- A delimiter and what stands behind it, without another one that could close it. -/
def IsUnclosedLiteral (t : Token) : Prop :=
  ∃ delimiter cs, isQuote delimiter = true ∧ Guarded delimiter cs ∧ t.toList = delimiter :: cs

/-- A token that ends by itself. -/
def IsComplete (t : Token) : Prop :=
  IsMark t ∨ IsWord t ∨ IsClosedLiteral t

variable {t : Token} {g : String} {c q : Char} {cs ds : List Char}

/-! Guarded characters. -/

theorem Guarded.nil (q : Char) : Guarded q [] := by
  intro before after h
  simp at h

/-- The quote itself may be added only behind a backslash. -/
theorem guarded_concat_iff :
    Guarded q (cs ++ [c]) ↔ Guarded q cs ∧ (c = q → cs.getLast? = some '\\') := by
  constructor
  · intro h
    refine ⟨?_, ?_⟩
    · rintro before after rfl
      exact h before (after ++ [c]) (by simp)
    · rintro rfl
      exact h cs [] rfl
  · rintro ⟨h, hc⟩ before after heq
    rcases List.eq_nil_or_concat after with rfl | ⟨after, d, rfl⟩
    · obtain ⟨rfl, hq⟩ := List.append_inj' heq rfl
      exact hc (List.cons.inj hq).1
    · rw [List.concat_eq_append, ← List.cons_append, ← List.append_assoc] at heq
      exact h before after (List.append_inj' heq rfl).1

/-- Either nothing closes the literal, or something does so first. -/
theorem guarded_or_closes (q : Char) (cs : List Char) :
    Guarded q cs ∨ ∃ body rest, cs = body ++ q :: rest ∧ Guarded q body ∧
      body.getLast? ≠ some '\\' := by
  induction cs using List.reverseRecOn with
  | nil => exact .inl (.nil q)
  | append_singleton cs c ih =>
      rcases ih with h | ⟨body, rest, rfl, hb, hl⟩
      · by_cases hc : c = q → cs.getLast? = some '\\'
        · exact .inl (guarded_concat_iff.mpr ⟨h, hc⟩)
        · obtain ⟨rfl, hl⟩ := Classical.not_imp.mp hc
          exact .inr ⟨cs, [], rfl, h, hl⟩
      · exact .inr ⟨body, rest ++ [c], by simp, hb, hl⟩

/-! Words at the ends of a text. -/

theorem isWordChar_of_isSeparator (h : isSeparator c = true) : isWordChar c = false :=
  isWordChar_eq_false_iff.mpr (.inr (.inl h))

theorem isWordChar_of_isPunctuation (h : isPunctuation c = true) : isWordChar c = false :=
  isWordChar_eq_false_iff.mpr (.inr (.inr h))

theorem isWordChar_of_isQuote (h : isQuote c = true) : isWordChar c = false :=
  isWordChar_eq_false_iff.mpr (.inl h)

theorem IsGap.endsWord (h : IsGap g) : endsWord g.toList = false := by
  rw [Token.endsWord, Option.any_eq_false]
  intro c hc
  simp [isWordChar_of_isSeparator (h c (List.mem_of_getLast? hc))]

theorem IsMark.endsWord (h : IsMark t) : endsWord t.toList = false := by
  obtain ⟨c, hc, rfl⟩ := h
  simpa [Token.endsWord] using isWordChar_of_isPunctuation hc

theorem IsClosedLiteral.endsWord (h : IsClosedLiteral t) : endsWord t.toList = false := by
  obtain ⟨q, cs, hq, _, _, ht⟩ := h
  rw [ht, ← List.cons_append, Token.endsWord, List.getLast?_concat]
  exact isWordChar_of_isQuote hq

theorem IsWord.endsWord (h : IsWord t) : endsWord t.toList = true := by
  obtain ⟨hne, hall⟩ := h
  have hl : t.toList ≠ [] := mt String.toList_eq_nil_iff.mp hne
  rw [Token.endsWord, List.getLast?_eq_some_getLast hl]
  exact hall _ (List.getLast_mem hl)

theorem not_isWord (h : endsWord t.toList = false) : ¬ IsWord t := by
  intro hw
  rw [hw.endsWord] at h
  contradiction

/-! What a scan makes of each kind. -/

open Scan

theorem spells_gap (h : ∀ c ∈ cs, isSeparator c = true) : Spells cs [] := by
  induction cs with
  | nil => exact .nil
  | cons c cs ih =>
      have hc := h c List.mem_cons_self
      have hs : Spells [c] [] := by
        refine ⟨?_, ?_⟩
        · rw [scanChars, List.foldl_cons, step_separator hc]
          rfl
        · rw [scanChars, List.foldl_cons, step_separator hc]
          rfl
      refine hs.append (ih fun d hd => h d (List.mem_cons_of_mem c hd)) (.inl ?_)
      exact isWordChar_of_isSeparator hc

theorem IsGap.spells (h : IsGap g) : Spells g.toList [] :=
  spells_gap h

theorem IsMark.spells (h : IsMark t) : Spells t.toList [t] := by
  obtain ⟨c, hc, rfl⟩ := h
  have hs : scanChars c.toString.toList = ⟨[c.toString], [], none, c == '\\'⟩ := by
    rw [Char.toString_eq_singleton, String.toList_singleton, scanChars, List.foldl_cons,
      step_punctuation hc]
    rfl
  refine ⟨?_, ?_⟩ <;> rw [hs]
  rfl

/-- The characters of a word stay pending until something else comes. -/
theorem scanChars_word (h : ∀ c ∈ cs, isWordChar c = true) :
    scanChars cs = ⟨[], cs.reverse, none, cs.getLast? == some '\\'⟩ := by
  induction cs using List.reverseRecOn with
  | nil => rfl
  | append_singleton cs c ih =>
      have hc : isWordChar c = true := h c (by simp)
      have hcs := ih fun d hd => h d (by simp [hd])
      rw [scanChars] at hcs ⊢
      rw [List.foldl_append, hcs, List.foldl_cons, step_wordChar hc]
      simp

theorem IsWord.spells (h : IsWord t) : Spells t.toList [t] := by
  have hs := scanChars_word h.2
  refine ⟨?_, by rw [hs]⟩
  have hne : t.toList ≠ [] := mt String.toList_eq_nil_iff.mp h.1
  simp [hs, tokens, finished_cut, hne]

/-- Inside a literal guarded characters only pile up. -/
theorem scanChars_guarded (hq : isQuote q = true) (h : Guarded q cs) :
    scanChars (q :: cs) = ⟨[], (q :: cs).reverse, some q, cs.getLast? == some '\\'⟩ := by
  have hb : (q == '\\') = false := by
    rcases isQuote_iff.mp hq with rfl | rfl <;> decide
  induction cs using List.reverseRecOn with
  | nil =>
      rw [scanChars, List.foldl_cons, step_quote hq, hb]
      rfl
  | append_singleton cs c ih =>
      obtain ⟨hcs, hc⟩ := guarded_concat_iff.mp h
      have hi : c = q → (cs.getLast? == some '\\') = true := by simpa using hc
      have hs := ih hcs
      rw [scanChars] at hs ⊢
      rw [← List.cons_append, List.foldl_append, hs, List.foldl_cons, step_inside hi]
      simp

/-- The closing quote finishes the literal, so that nothing stays pending. -/
theorem IsClosedLiteral.spells (h : IsClosedLiteral t) : Spells t.toList [t] := by
  obtain ⟨q, cs, hq, hcs, hl, ht⟩ := h
  have hb : (cs.getLast? == some '\\') = false := by simpa using hl
  have hs : scanChars t.toList = ⟨[t], [], none, q == '\\'⟩ := by
    rw [ht, ← List.cons_append, scanChars, List.foldl_append, ← scanChars,
      scanChars_guarded hq hcs, hb, List.foldl_cons, step_closing]
    simp [← ht]
  refine ⟨?_, ?_⟩ <;> rw [hs]
  rfl

/-- A literal that nothing closes goes on to the end of the text. -/
theorem IsUnclosedLiteral.tokens_scanChars (h : IsUnclosedLiteral t) :
    (scanChars t.toList).tokens = [t] := by
  obtain ⟨q, cs, hq, hcs, ht⟩ := h
  have ho : String.ofList (q :: cs) = t := by rw [← ht, String.ofList_toList]
  rw [ht, scanChars_guarded hq hcs, tokens, finished_cut, if_neg (by simp), List.reverse_reverse,
    ho]
  rfl

theorem IsComplete.spells (h : IsComplete t) : Spells t.toList [t] := by
  rcases h with h | h | h
  · exact h.spells
  · exact h.spells
  · exact h.spells

end Token

end QueryOutline
