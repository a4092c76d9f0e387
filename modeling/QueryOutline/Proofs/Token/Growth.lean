import Mathlib.Data.List.Induction
import Mathlib.Data.List.Infix
import QueryOutline.Proofs.Token.Scanning

/-!
Texts that go on. What follows a text leaves the tokens of the text as they are, but for
the last one: that one may go on, if it is a word or a literal.
-/

namespace QueryOutline

namespace Token

namespace Scan

/-- The first character of a pending token is no punctuation, and inside of a literal
there is one. -/
structure Proper (s : Scan) : Prop where
  first : ∀ c ∈ s.pending.getLast?, isPunctuation c = false
  inside : s.delimiter ≠ none → s.pending ≠ []

theorem Proper.step {s : Scan} (h : s.Proper) (c : Char) : (s.step c).Proper := by
  have hm := s.moves_step c
  generalize s.step c = t at hm ⊢
  cases hm with
  | @word older cs b c hc =>
      refine ⟨?_, by simp⟩
      intro d hd
      cases cs with
      | nil =>
          obtain rfl : c = d := by simpa using hd
          exact (isWordChar_iff.mp hc).2.1
      | cons => exact h.first d (by simpa using hd)
  | quote hc =>
      refine ⟨?_, by simp⟩
      intro d hd
      obtain rfl : c = d := by simpa using hd
      exact not_isPunctuation_of_isQuote hc
  | inside =>
      refine ⟨?_, by simp⟩
      intro d hd
      rw [List.getLast?_cons_of_ne_nil (h.inside (by simp))] at hd
      exact h.first d hd
  | separator | punctuation | closing => exact ⟨by simp, by simp⟩

theorem proper_scanChars (cs : List Char) : (scanChars cs).Proper := by
  induction cs using List.reverseRecOn with
  | nil => exact ⟨by simp [scanChars], by simp [scanChars]⟩
  | append_singleton cs c ih =>
      rw [scanChars, List.foldl_append]
      exact ih.step c

def unfinished (s : Scan) : Scan :=
  { s with finished := [] }

theorem tokens_foldl_step (s : Scan) (cs : List Char) : (cs.foldl step s).tokens =
    s.finished.reverse ++ (cs.foldl step s.unfinished).tokens := by
  have hs : s = s.unfinished.above s.finished := by simp [unfinished, above]
  conv_lhs => rw [hs, foldl_step_above, tokens_above]

/-- A pending token goes on, or it is finished. -/
theorem step_pending {s : Scan} (hf : s.finished = []) (hp : s.pending ≠ []) (c : Char) :
    ((s.step c).finished = [] ∧ (s.step c).pending = c :: s.pending) ∨
      ∃ t more, (s.step c).finished = more ++ [t] ∧ s.pending.reverse <+: t.toList := by
  have hcut : s.cut.finished = [String.ofList s.pending.reverse] := by
    simp [finished_cut, hf, hp]
  have hself : s.pending.reverse <+: (String.ofList s.pending.reverse).toList := by simp
  have hm := s.moves_step c
  generalize s.step c = u at hm ⊢
  cases hm with
  | word | inside => exact .inl ⟨hf, rfl⟩
  | quote | separator => exact .inr ⟨_, [], hcut, hself⟩
  | punctuation => exact .inr ⟨_, [c.toString], congrArg (c.toString :: ·) hcut, hself⟩
  | closing =>
      obtain rfl := hf
      exact .inr ⟨_, [], rfl, by simp⟩

/-- A pending token becomes the next one, as it is or longer. -/
theorem exists_tokens_of_pending {s : Scan} (hf : s.finished = []) (hp : s.pending ≠ [])
    (cs : List Char) :
    ∃ t more, (cs.foldl step s).tokens = t :: more ∧ s.pending.reverse <+: t.toList := by
  induction cs generalizing s with
  | nil =>
      refine ⟨String.ofList s.pending.reverse, [], ?_, by simp⟩
      simp [tokens, finished_cut, hf, hp]
  | cons c cs ih =>
      rw [List.foldl_cons]
      rcases step_pending hf hp c with ⟨hf', hp'⟩ | ⟨t, more, hf', ht⟩
      · obtain ⟨t, more, htokens, ht⟩ := ih hf' (by simp [hp'])
        refine ⟨t, more, htokens, ?_⟩
        rw [hp', List.reverse_cons] at ht
        exact (List.prefix_append _ _).trans ht
      · rw [tokens_foldl_step, hf']
        exact ⟨t, more.reverse ++ (cs.foldl step (s.step c).unfinished).tokens, by simp, ht⟩

end Scan

/-- A token that another one begins with. Neither of them is punctuation. -/
structure GrowsInto (t u : Token) : Prop where
  growth : t.toList <+: u.toList
  first : ∃ c, t.toList.head? = some c ∧ isPunctuation c = false

theorem GrowsInto.exists_first {t u : Token} (h : GrowsInto t u) :
    ∃ c, t.toList.head? = some c ∧ u.toList.head? = some c ∧ isPunctuation c = false := by
  obtain ⟨c, ht, hc⟩ := h.first
  obtain ⟨more, hu⟩ := h.growth
  refine ⟨c, ht, ?_, hc⟩
  rw [← hu, List.head?_append, ht]
  rfl

/-- What follows a text leaves its tokens alone, but the last one may go on. -/
theorem tokenize_append (a b : String) : tokenize a <+: tokenize (a ++ b) ∨
    ∃ ts t u more, tokenize a = ts ++ [t] ∧ tokenize (a ++ b) = ts ++ u :: more ∧
      GrowsInto t u := by
  let s := scanChars a.toList
  have happend : tokenize (a ++ b) = (b.toList.foldl Scan.step s).tokens := by
    simp only [tokenize_eq, scanChars, String.toList_append, List.foldl_append, s]
  have ha : tokenize a = s.cut.finished.reverse := rfl
  rw [happend, ha, Scan.finished_cut, Scan.tokens_foldl_step]
  -- what is finished stays, only what is pending can go on
  by_cases hp : s.pending = []
  · left
    simp [hp]
  · right
    obtain ⟨u, more, htokens, hu⟩ :=
      Scan.exists_tokens_of_pending (s := s.unfinished) rfl hp b.toList
    refine ⟨s.finished.reverse, String.ofList s.pending.reverse, u, more, ?_, ?_, ?_⟩
    · simp [hp]
    · rw [htokens]
    · obtain ⟨c, hc⟩ := Option.ne_none_iff_exists'.mp (mt List.getLast?_eq_none_iff.mp hp)
      refine ⟨by simpa [Scan.unfinished] using hu, c, by simpa using hc, ?_⟩
      exact (Scan.proper_scanChars a.toList).first c hc

end Token

end QueryOutline
