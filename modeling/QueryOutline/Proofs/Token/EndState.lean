import QueryOutline.Document
import QueryOutline.Proofs.Token.Growth
import QueryOutline.Proofs.Token.Lexeme

/-!
How a scan ends. What a scan has finished is complete. What is pending is a word outside of a
literal, and inside of one it is a literal that nothing has closed. So a look at the last
token tells where the text ended, and no other token looks like a literal that is open.
-/

namespace QueryOutline

namespace Token

variable {t : Token}

/-! What tokens of each kind look like. -/

theorem isLiteral_of_toList_eq {q : Char} {cs : List Char} (ht : t.toList = q :: cs) :
    isLiteral t = isQuote q := by
  rw [isLiteral, ht]

theorem IsMark.isUnterminated (h : IsMark t) : isUnterminated t = false := by
  obtain ⟨c, hc, rfl⟩ := h
  have ht : c.toString.toList = [c] := by simp
  have hl : isLiteral c.toString = false := by
    rw [isLiteral_of_toList_eq ht, not_isQuote_of_isPunctuation hc]
  rw [Token.isUnterminated, hl, Bool.false_and]

theorem IsWord.isUnterminated (h : IsWord t) : isUnterminated t = false := by
  obtain ⟨c, cs, ht⟩ := List.exists_cons_of_ne_nil (mt String.toList_eq_nil_iff.mp h.1)
  have hc : isWordChar c = true := h.2 c (by simp [ht])
  have hl : isLiteral t = false := by
    rw [isLiteral_of_toList_eq ht, (isWordChar_iff.mp hc).2.2]
  rw [Token.isUnterminated, hl, Bool.false_and]

theorem ne_backslash_of_isQuote {q : Char} (hq : isQuote q = true) : q ≠ '\\' := by
  rcases isQuote_iff.mp hq with rfl | rfl <;> decide

theorem IsClosedLiteral.isUnterminated (h : IsClosedLiteral t) : isUnterminated t = false := by
  obtain ⟨q, cs, hq, -, hl, ht⟩ := h
  rw [Token.isUnterminated, ht]
  rcases List.eq_nil_or_concat cs with rfl | ⟨ds, d, rfl⟩
  · simp [ne_backslash_of_isQuote hq]
  · have hd : d ≠ '\\' := by simpa using hl
    simp [hd]

theorem IsClosedLiteral.isLiteral (h : IsClosedLiteral t) : isLiteral t = true := by
  obtain ⟨q, cs, hq, -, -, ht⟩ := h
  rw [isLiteral_of_toList_eq ht, hq]

theorem IsUnclosedLiteral.isUnterminated (h : IsUnclosedLiteral t) :
    isUnterminated t = true := by
  obtain ⟨q, cs, hq, hg, ht⟩ := h
  rw [Token.isUnterminated, isLiteral_of_toList_eq ht, hq, ht, Bool.true_and]
  rcases List.eq_nil_or_concat cs with rfl | ⟨ds, c, rfl⟩
  · rfl
  · rw [List.concat_eq_append] at hg
    obtain ⟨-, hc⟩ := guarded_concat_iff.mp hg
    by_cases hcq : c = q
    · obtain ⟨es, rfl⟩ := List.getLast?_eq_some_iff.mp (hc hcq)
      simp
    · rcases List.eq_nil_or_concat ds with rfl | ⟨es, e, rfl⟩
      · simp [Ne.symm hcq]
      · simp [Ne.symm hcq]

theorem IsComplete.isUnterminated (h : IsComplete t) : isUnterminated t = false := by
  rcases h with h | h | h
  · exact h.isUnterminated
  · exact h.isUnterminated
  · exact h.isUnterminated

/-! What is known of a scan between two characters. -/

namespace Scan

/-- Inside of a literal the delimiter and what stands behind it are pending, and nothing among
that has closed the literal. -/
structure Sorted (s : Scan) : Prop where
  finished : ∀ t ∈ s.finished, IsComplete t
  outside : s.delimiter = none → ∀ c ∈ s.pending, isWordChar c = true
  inside : ∀ q, s.delimiter = some q → isQuote q = true ∧ ∃ cs, Guarded q cs ∧
    s.pending.reverse = q :: cs ∧ s.afterBackslash = (cs.getLast? == some '\\')

variable {s : Scan}

/-- Outside of a literal a cut finishes a word, if anything. -/
theorem Sorted.isComplete_cut (h : s.Sorted) (hd : s.delimiter = none) :
    ∀ t ∈ s.cut.finished, IsComplete t := by
  intro t ht
  rw [finished_cut] at ht
  split at ht
  · exact h.finished t ht
  · next hp =>
      rcases List.mem_cons.mp ht with rfl | ht
      · refine .inr (.inl ⟨by simpa using hp, ?_⟩)
        simpa using h.outside hd
      · exact h.finished t ht

theorem Sorted.step (h : s.Sorted) (c : Char) : (s.step c).Sorted := by
  have hm := s.moves_step c
  generalize s.step c = u at hm ⊢
  cases hm with
  | word hc =>
      refine ⟨h.finished, ?_, by simp⟩
      intro _ d hd
      rcases List.mem_cons.mp hd with rfl | hd
      · exact hc
      · exact h.outside rfl d hd
  | quote hc =>
      refine ⟨h.isComplete_cut rfl, by simp, ?_⟩
      intro q hq
      obtain rfl : c = q := Option.some.inj hq
      refine ⟨hc, [], .nil c, rfl, ?_⟩
      simpa using ne_backslash_of_isQuote hc
  | separator => exact ⟨h.isComplete_cut rfl, by simp, by simp⟩
  | punctuation hc =>
      refine ⟨?_, by simp, by simp⟩
      intro t ht
      rcases List.mem_cons.mp ht with rfl | ht
      · exact .inl ⟨_, hc, rfl⟩
      · exact h.isComplete_cut rfl t ht
  | @inside _ _ _ _ delimiter hc =>
      refine ⟨h.finished, by simp, ?_⟩
      intro q hq
      obtain rfl : delimiter = q := Option.some.inj hq
      obtain ⟨hq, cs, hg, hp, hb⟩ := h.inside delimiter rfl
      refine ⟨hq, cs ++ [c], guarded_concat_iff.mpr ⟨hg, ?_⟩, ?_, ?_⟩
      · intro hcq
        simpa [hc hcq] using hb
      · simp [List.reverse_cons, hp]
      · simp
  | closing =>
      refine ⟨?_, by simp, by simp⟩
      intro t ht
      rcases List.mem_cons.mp ht with rfl | ht
      · obtain ⟨hq, cs, hg, hp, hb⟩ := h.inside _ rfl
        refine .inr (.inr ⟨_, cs, hq, hg, by simpa using hb, ?_⟩)
        simp [hp]
      · exact h.finished t ht

/-! What a scan leaves at the end of a text. -/

theorem Sorted.isComplete_tokens (h : s.Sorted) (hd : s.delimiter = none) :
    ∀ t ∈ s.tokens, IsComplete t := by
  intro t ht
  exact h.isComplete_cut hd t (List.mem_reverse.mp ht)

/-- Inside of a literal the literal is the last token. -/
theorem Sorted.exists_unclosed (h : s.Sorted) (hd : s.delimiter ≠ none) :
    ∃ t, s.tokens = s.finished.reverse ++ [t] ∧ IsUnclosedLiteral t := by
  obtain ⟨q, hq⟩ := Option.ne_none_iff_exists'.mp hd
  obtain ⟨hquote, cs, hg, hp, -⟩ := h.inside q hq
  refine ⟨String.ofList s.pending.reverse, ?_, q, cs, hquote, hg, by simp [hp]⟩
  have hne : s.pending ≠ [] := by
    intro hnil
    simp [hnil] at hp
  simp [tokens, finished_cut, hne]

/-- What ends a literal finishes it. -/
theorem Sorted.exists_closed {q c : Char} (h : s.Sorted) (hd : s.delimiter = some q)
    (hn : (s.step c).delimiter = none) :
    ∃ t, (s.step c).finished = t :: s.finished ∧ IsClosedLiteral t := by
  have hm := s.moves_step c
  generalize s.step c = u at hm hn ⊢
  cases hm with
  | word | quote | separator | punctuation | inside => contradiction
  | closing =>
      obtain ⟨hq, cs, hg, hp, hb⟩ := h.inside c rfl
      exact ⟨_, rfl, c, cs, hq, hg, by simpa using hb, by simp [hp]⟩

end Scan

theorem sorted_scanChars (cs : List Char) : (scanChars cs).Sorted := by
  induction cs using List.reverseRecOn with
  | nil => exact ⟨by simp [scanChars], by simp [scanChars], by simp [scanChars]⟩
  | append_singleton cs c ih =>
      rw [scanChars, List.foldl_append]
      exact ih.step c

/-- Among the tokens of a text only an open literal is not complete. -/
theorem isComplete_of_mem_tokenize {text : String} (h : t ∈ tokenize text)
    (ht : isUnterminated t = false) : IsComplete t := by
  have hs : (scan text).Sorted := sorted_scanChars text.toList
  by_cases hd : (scan text).delimiter = none
  · exact hs.isComplete_tokens hd t h
  · obtain ⟨u, htokens, hu⟩ := hs.exists_unclosed hd
    rw [tokenize, htokens] at h
    rcases List.mem_append.mp h with h | h
    · exact hs.finished t (List.mem_reverse.mp h)
    · obtain rfl := List.mem_singleton.mp h
      rw [hu.isUnterminated] at ht
      contradiction

/-- A token looks like a literal that is open just in case the text has ended inside of it. -/
theorem isUnterminated_iff_of_getElem? {text : String} {i : Nat}
    (h : (tokenize text)[i]? = some t) :
    isUnterminated t = true ↔ i + 1 = (tokenize text).length ∧ (scan text).delimiter ≠ none := by
  have hs : (scan text).Sorted := sorted_scanChars text.toList
  by_cases hd : (scan text).delimiter = none
  · have ht := hs.isComplete_tokens hd t (List.mem_of_getElem? h)
    simp [ht.isUnterminated, hd]
  · obtain ⟨u, htokens, hu⟩ := hs.exists_unclosed hd
    change tokenize text = _ at htokens
    rw [htokens] at h ⊢
    rw [List.length_append, List.length_singleton, Nat.add_right_cancel_iff]
    rcases Nat.lt_or_ge i (scan text).finished.reverse.length with hi | hi
    · rw [List.getElem?_append_left hi] at h
      have ht := hs.finished t (List.mem_reverse.mp (List.mem_of_getElem? h))
      simp only [ht.isUnterminated, Nat.ne_of_lt hi, Bool.false_eq_true, false_and]
    · rw [List.getElem?_append_right hi, List.getElem?_singleton, Option.ite_none_right_eq_some,
        Option.some.injEq] at h
      obtain ⟨hlast, rfl⟩ := h
      have heq : i = (scan text).finished.reverse.length := by omega
      simp only [hu.isUnterminated, heq, hd, ne_eq, not_false_iff, and_self]

/-- A literal that is closed keeps its place among the tokens. -/
theorem exists_closed_getElem? {text : String} {before after : List Char} {q c : Char}
    (htext : text.toList = before ++ c :: after) (hd : (scanChars before).delimiter = some q)
    (hn : (scanChars (before ++ [c])).delimiter = none) :
    ∃ t, (tokenize text)[(scanChars before).finished.length]? = some t ∧ IsClosedLiteral t := by
  have hstep : scanChars (before ++ [c]) = (scanChars before).step c := List.foldl_append
  rw [hstep] at hn
  obtain ⟨t, hfinished, ht⟩ := (sorted_scanChars before).exists_closed hd hn
  refine ⟨t, ?_, ht⟩
  have htokens : tokenize text = ((scanChars before).step c).finished.reverse ++
      (after.foldl Scan.step ((scanChars before).step c).unfinished).tokens := by
    rw [tokenize_eq, htext, scanChars, List.foldl_append, List.foldl_cons, Scan.tokens_foldl_step]
    rfl
  simp [htokens, hfinished]

end Token

open Token

namespace Diagnostic

theorem filter_kind_collect (text : String) (ts : List Token) (definitions : Nat)
    (skipped : List Nat) :
    (collect text ts definitions skipped).filter (·.kind == "unterminated_string") =
      ofLastToken ts := by
  have hlast : (ofLastToken ts).filter (·.kind == "unterminated_string") = ofLastToken ts := by
    unfold ofLastToken
    repeat' split
    all_goals rfl
  have hbraces (b : BraceCount) :
      (ofBraces b).filter (·.kind == "unterminated_string") = [] := by
    unfold ofBraces
    repeat' split
    all_goals rfl
  have hskipped : (ofSkipped skipped).filter (·.kind == "unterminated_string") = [] := by
    cases skipped <;> rfl
  rw [collect, List.filter_append, List.filter_append, List.filter_append, hlast, hbraces,
    hskipped]
  split <;> simp [kind]

/-- The last token is looked at, and that is enough. -/
theorem ofLastToken_tokenize (text : String) : ofLastToken (tokenize text) =
    if (scan text).delimiter = none then []
    else [unterminatedString ((tokenize text).length - 1)] := by
  have hs : (scan text).Sorted := sorted_scanChars text.toList
  split
  · next hd =>
      cases hlast : (tokenize text).getLast? with
      | none => simp [ofLastToken, hlast]
      | some t =>
          have ht := hs.isComplete_tokens hd t (List.mem_of_getLast? hlast)
          simp [ofLastToken, hlast, ht.isUnterminated]
  · next hd =>
      obtain ⟨t, htokens, ht⟩ := hs.exists_unclosed hd
      have hlast : (tokenize text).getLast? = some t := by
        rw [tokenize, htokens, List.getLast?_concat]
      simp [ofLastToken, hlast, ht.isUnterminated]

end Diagnostic

/-- A token looks like a literal that is open just in case it is the last one and the text
has ended inside of it. Then, and only then, a document reports it, with its place; no literal
that has been closed is ever taken for one. -/
theorem Document.unterminated_iff_inside (text : String) :
    (∀ i t, (tokenize text)[i]? = some t →
      (isUnterminated t = true ↔
        i + 1 = (tokenize text).length ∧ (scan text).delimiter ≠ none)) ∧
      (Document.parse text).diagnostics.filter (·.kind == "unterminated_string") =
        (if (scan text).delimiter = none then []
          else [.unterminatedString ((tokenize text).length - 1)]) ∧
      ∀ before c after q, text.toList = before ++ c :: after →
        (scanChars before).delimiter = some q → (scanChars (before ++ [c])).delimiter = none →
        ∃ t, (tokenize text)[(scanChars before).finished.length]? = some t ∧
          isLiteral t = true ∧ isUnterminated t = false ∧
          .unterminatedString (scanChars before).finished.length ∉
            (Document.parse text).diagnostics := by
  have hreports : (Document.parse text).diagnostics.filter (·.kind == "unterminated_string") =
      if (scan text).delimiter = none then []
      else [.unterminatedString ((tokenize text).length - 1)] :=
    (Diagnostic.filter_kind_collect ..).trans (Diagnostic.ofLastToken_tokenize text)
  refine ⟨fun i t h => isUnterminated_iff_of_getElem? h, hreports, ?_⟩
  intro before c after q htext hd hn
  obtain ⟨t, hget, ht⟩ := exists_closed_getElem? htext hd hn
  have hclosed : isUnterminated t = false := ht.isUnterminated
  refine ⟨t, hget, ht.isLiteral, hclosed, ?_⟩
  intro hmem
  have hreported : .unterminatedString (scanChars before).finished.length ∈
      (Document.parse text).diagnostics.filter (·.kind == "unterminated_string") :=
    List.mem_filter.mpr ⟨hmem, rfl⟩
  rw [hreports] at hreported
  split at hreported
  · cases hreported
  · next hinside =>
      have hindex : (scanChars before).finished.length = (tokenize text).length - 1 := by
        simpa using hreported
      have hlt : (scanChars before).finished.length < (tokenize text).length :=
        (List.getElem?_eq_some_iff.mp hget).1
      have hopen := (isUnterminated_iff_of_getElem? hget).mpr ⟨by omega, hinside⟩
      rw [hclosed] at hopen
      contradiction

/-- One literal is closed, and the text ends inside of the other. -/
theorem Document.unterminated_iff_inside_quotes :
    let text := "\x7b a(x: \"b\" y: \"c"
    (tokenize text)[8]? = some "\"c" ∧ isUnterminated "\"c" = true ∧
      (scan text).delimiter ≠ none ∧
      ∃ t, (tokenize text)[5]? = some t ∧ isLiteral t = true ∧ isUnterminated t = false := by
  intro text
  obtain ⟨hopen, -, hclosed⟩ := unterminated_iff_inside text
  have hlast : (tokenize text)[8]? = some "\"c" := by decide +kernel
  have hunclosed : isUnterminated "\"c" = true := by decide
  refine ⟨hlast, hunclosed, ((hopen 8 "\"c" hlast).mp hunclosed).2, ?_⟩
  obtain ⟨t, ht, hliteral, hends, -⟩ := hclosed "\x7b a(x: \"b".toList '"' " y: \"c".toList '"'
    (by decide) (by decide +kernel) (by decide +kernel)
  exact ⟨t, ht, hliteral, hends⟩

end QueryOutline
