import QueryOutline.Grammar.ArgumentValue
import QueryOutline.Proofs.Token.Lexeme

/-!
Spelling out tokens. Characters that do not begin like a word can stand behind any token.
So a text that is built from its end, with a mark or a gap in front of what is there or
with a token in front of a mark or a gap, is scanned into the tokens it was built from.
-/

namespace QueryOutline

namespace Token

variable {t : Token} {g : String} {cs ds : List Char} {ts us : List Token}

/-- The characters give the tokens, behind a word as well. -/
structure SpellsBehind (cs : List Char) (ts : List Token) : Prop extends Spells cs ts where
  apart : startsWord cs = false

theorem SpellsBehind.nil : SpellsBehind [] [] :=
  ⟨.nil, rfl⟩

theorem Spells.behind (h : Spells cs ts) (hb : SpellsBehind ds us) :
    Spells (cs ++ ds) (ts ++ us) :=
  h.append hb.toSpells (.inr hb.apart)

theorem startsWord_append (hcs : startsWord cs = false) (hds : startsWord ds = false) :
    startsWord (cs ++ ds) = false := by
  cases cs with
  | nil => exact hds
  | cons c cs => exact hcs

theorem SpellsBehind.behind (h : SpellsBehind cs ts) (hb : SpellsBehind ds us) :
    SpellsBehind (cs ++ ds) (ts ++ us) :=
  ⟨h.toSpells.behind hb, startsWord_append h.apart hb.apart⟩

/-- A gap keeps tokens apart from the word in front of it. -/
theorem SpellsBehind.gap (hg : IsGap g) (hne : g ≠ "") (h : Spells cs ts) :
    SpellsBehind (g.toList ++ cs) ts := by
  refine ⟨hg.spells.append h (.inl hg.endsWord), ?_⟩
  cases hl : g.toList with
  | nil => exact absurd (String.toList_eq_nil_iff.mp hl) hne
  | cons c ds => exact isWordChar_of_isSeparator (hg c (by simp [hl]))

/-- Punctuation needs no gap on either side. -/
theorem SpellsBehind.mark (ht : IsMark t) (h : Spells cs ts) :
    SpellsBehind (t.toList ++ cs) (t :: ts) := by
  refine ⟨ht.spells.append h (.inl ht.endsWord), ?_⟩
  obtain ⟨c, hc, rfl⟩ := ht
  simpa [startsWord] using isWordChar_of_isPunctuation hc

/-- A complete token ends where no word goes on. -/
theorem Spells.token (ht : IsComplete t) (h : SpellsBehind cs ts) :
    Spells (t.toList ++ cs) (t :: ts) :=
  ht.spells.behind h

theorem isMark_of_mem
    (h : t ∈ ['{', '}', '(', ')', '[', ']', ':', '!', '$', '@'].map Char.toString) : IsMark t := by
  obtain ⟨c, hc, rfl⟩ := List.mem_map.mp h
  exact ⟨c, isPunctuation_iff.mpr hc, rfl⟩

theorem isGap_blank : IsGap " " := by
  simp [IsGap, isSeparator, Text.isBlank]

theorem IsMark.spellsBehind (ht : IsMark t) : SpellsBehind t.toList [t] := by
  simpa using SpellsBehind.mark ht .nil

/-- A colon with a blank behind it. -/
theorem SpellsBehind.colon (h : Spells cs ts) : SpellsBehind (": ".toList ++ cs) (":" :: ts) := by
  have hmark : IsMark ":" := isMark_of_mem (by decide)
  have hblank : SpellsBehind (" ".toList ++ cs) ts := .gap isGap_blank (by decide) h
  have hchars : ": ".toList ++ cs = ":".toList ++ (" ".toList ++ cs) := by simp
  rw [hchars]
  exact .mark hmark hblank.toSpells

/-! Values. -/

/-- Between two pieces there is a blank, unless the first one is a dollar sign, which needs
none. -/
theorem spells_valuePieces (h : ∀ t ∈ ts, IsComplete t) :
    Spells ((valuePieces ts).flatMap String.toList) ts := by
  fun_induction valuePieces ts with
  | case1 => exact .nil
  | case2 t => exact .token (h t List.mem_cons_self) .nil
  | case3 ts _ ih =>
      have hts := ih fun t ht => h t (List.mem_cons_of_mem _ ht)
      exact (SpellsBehind.mark (isMark_of_mem (by decide)) hts).toSpells
  | case4 t ts _ _ ih =>
      have hts := ih fun t ht => h t (List.mem_cons_of_mem _ ht)
      exact .token (h t List.mem_cons_self) (.gap isGap_blank (by decide) hts)

/-- There is something else than blanks at both ends. -/
def Framed (cs : List Char) : Prop :=
  (∃ c, cs.head? = some c ∧ Text.isBlank c = false) ∧
    ∃ c, cs.getLast? = some c ∧ Text.isBlank c = false

theorem Framed.append (h : Framed cs) (hds : Framed ds) (between : List Char) :
    Framed (cs ++ (between ++ ds)) := by
  obtain ⟨⟨c, hc, hb⟩, -⟩ := h
  obtain ⟨-, ⟨d, hd, hbd⟩⟩ := hds
  refine ⟨⟨c, by simp [hc], hb⟩, ⟨d, ?_, hbd⟩⟩
  rw [← List.append_assoc, List.getLast?_append, hd]
  rfl

/-- There are no blanks to trim at the ends. -/
theorem Framed.trimChars_eq (h : Framed cs) : Text.trimChars cs = cs := by
  have hd {ds : List Char} {d : Char} (hf : ds.head? = some d) (hb : Text.isBlank d = false) :
      ds.dropWhile Text.isBlank = ds := by
    cases ds with
    | nil => rfl
    | cons c ds =>
        obtain rfl : c = d := Option.some.inj hf
        simp [hb]
  obtain ⟨⟨c, hc, hb⟩, ⟨d, hl, hbd⟩⟩ := h
  rw [← List.head?_reverse] at hl
  rw [Text.trimChars, hd hc hb, hd hl hbd, List.reverse_reverse]

theorem isBlank_of_isSeparator_eq_false {c : Char} (h : isSeparator c = false) :
    Text.isBlank c = false := by
  rw [isSeparator, Bool.or_eq_false_iff] at h
  exact h.2

theorem framed_of_forall (hne : cs ≠ []) (h : ∀ c ∈ cs, isSeparator c = false) : Framed cs := by
  refine ⟨⟨cs.head hne, List.head?_eq_some_head hne, ?_⟩,
    ⟨cs.getLast hne, List.getLast?_eq_some_getLast hne, ?_⟩⟩
  · exact isBlank_of_isSeparator_eq_false (h _ (List.head_mem hne))
  · exact isBlank_of_isSeparator_eq_false (h _ (List.getLast_mem hne))

/-- A literal may have blanks inside, but quotes stand at its ends. -/
theorem IsComplete.framed (h : IsComplete t) : Framed t.toList := by
  rcases h with ⟨c, hc, rfl⟩ | ⟨hne, hw⟩ | ⟨q, cs, hq, -, -, ht⟩
  · refine framed_of_forall (by simp) ?_
    simpa using not_isSeparator_of_isPunctuation hc
  · refine framed_of_forall (mt String.toList_eq_nil_iff.mp hne) fun c hc => ?_
    exact (isWordChar_iff.mp (hw c hc)).1
  · have hb := isBlank_of_isSeparator_eq_false (not_isSeparator_of_isQuote hq)
    refine ⟨⟨q, by simp [ht], hb⟩, ⟨q, ?_, hb⟩⟩
    rw [ht, ← List.cons_append, List.getLast?_concat]

theorem framed_valuePieces (hne : ts ≠ []) (h : ∀ t ∈ ts, IsComplete t) :
    Framed ((valuePieces ts).flatMap String.toList) := by
  fun_induction valuePieces ts with
  | case1 => contradiction
  | case2 t => simpa using (h t List.mem_cons_self).framed
  | case3 ts hts ih =>
      have hf := (h "$" List.mem_cons_self).framed
      have hr := ih hts fun t ht => h t (List.mem_cons_of_mem _ ht)
      exact hf.append hr []
  | case4 t ts hts _ ih =>
      have hf := (h t List.mem_cons_self).framed
      have hr := ih hts fun t ht => h t (List.mem_cons_of_mem _ ht)
      exact hf.append hr [' ']

/-- A joined value gives its tokens back. -/
theorem spells_joinValue (h : ∀ t ∈ ts, IsComplete t) : Spells (joinValue ts).toList ts := by
  by_cases hne : ts = []
  · subst hne
    exact .nil
  · rw [joinValue, Text.trim, String.toList_join, (framed_valuePieces hne h).trimChars_eq,
      String.toList_ofList]
    exact spells_valuePieces h

end Token

end QueryOutline
