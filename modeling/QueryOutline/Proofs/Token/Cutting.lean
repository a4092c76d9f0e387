import Mathlib.Logic.ExistsUnique
import QueryOutline.Proofs.Token.Lexeme

/-!
Cutting a text up into tokens. A cutting names the tokens of a text and the gaps around
them. It is lexical when the gaps are separators, every token is of a kind, a literal that
is never closed is the end of the text, and a gap keeps neighbouring words apart. Every
text has one lexical cutting and no other, and its tokens are those that a scan finds.
-/

namespace QueryOutline

open Token

/-- A token with the gap behind it. -/
structure Cutting.Piece where
  token : Token
  gap : String
  deriving DecidableEq, Repr

structure Cutting where
  /-- The gap before the first token. -/
  lead : String
  pieces : List Cutting.Piece
  deriving DecidableEq, Repr

namespace Cutting

def text (c : Cutting) : String :=
  c.lead ++ String.join (c.pieces.map fun p => p.token ++ p.gap)

def tokens (c : Cutting) : List Token :=
  c.pieces.map (·.token)

def gaps (c : Cutting) : List String :=
  c.lead :: c.pieces.map (·.gap)

structure IsLexical (c : Cutting) : Prop where
  gaps : ∀ g ∈ c.gaps, IsGap g
  tokens : ∀ before p after, c.pieces = before ++ p :: after →
    IsMark p.token ∨ IsWord p.token ∨ IsClosedLiteral p.token ∨
      (IsUnclosedLiteral p.token ∧ after = [] ∧ p.gap = "")
  words : ∀ before p q after, c.pieces = before ++ p :: q :: after →
    IsWord p.token → IsWord q.token → p.gap ≠ ""

/-! The first token of a cutting and the cutting behind it. -/

/-- The first piece may stand in front of the others. -/
structure Leads (p : Piece) (ps : List Piece) : Prop where
  token : IsMark p.token ∨ IsWord p.token ∨ IsClosedLiteral p.token ∨
    (IsUnclosedLiteral p.token ∧ ps = [] ∧ p.gap = "")
  words : IsWord p.token → ∀ q, ps.head? = some q → IsWord q.token → p.gap ≠ ""

variable {g : String} {p : Piece} {ps : List Piece} {c d : Cutting}

theorem isLexical_nil_iff : IsLexical ⟨g, []⟩ ↔ IsGap g := by
  constructor
  · intro h
    exact h.gaps g List.mem_cons_self
  · intro h
    refine ⟨by simpa [Cutting.gaps] using h, ?_, ?_⟩
    · simp
    · simp

theorem isLexical_cons_iff :
    IsLexical ⟨g, p :: ps⟩ ↔ IsGap g ∧ Leads p ps ∧ IsLexical ⟨p.gap, ps⟩ := by
  constructor
  · intro h
    refine ⟨h.gaps g List.mem_cons_self, ⟨h.tokens [] p ps rfl, ?_⟩, ?_, ?_, ?_⟩
    · intro hp q hq
      obtain ⟨qs, rfl⟩ := List.head?_eq_some_iff.mp hq
      exact h.words [] p q qs rfl hp
    · intro k hk
      exact h.gaps k (List.mem_cons_of_mem g hk)
    · rintro before q after rfl
      exact h.tokens (p :: before) q after rfl
    · rintro before q r after rfl
      exact h.words (p :: before) q r after rfl
  · rintro ⟨hg, hp, h⟩
    refine ⟨?_, ?_, ?_⟩
    · intro k hk
      rcases List.mem_cons.mp hk with rfl | hk
      · exact hg
      · exact h.gaps k hk
    · intro before q after heq
      cases before with
      | nil =>
          obtain ⟨rfl, rfl⟩ := List.cons.inj heq
          exact hp.token
      | cons b before => exact h.tokens before q after (List.cons.inj heq).2
    · intro before q r after heq hq
      cases before with
      | nil =>
          obtain ⟨rfl, rfl⟩ := List.cons.inj heq
          exact hp.words hq r rfl
      | cons b before => exact h.words before q r after (List.cons.inj heq).2 hq

theorem text_nil (g : String) : text ⟨g, []⟩ = g := by
  simp [text]

theorem text_cons (g : String) (p : Piece) (ps : List Piece) :
    text ⟨g, p :: ps⟩ = g ++ (p.token ++ text ⟨p.gap, ps⟩) := by
  simp [text, String.append_assoc]

theorem toList_text_cons (g : String) (p : Piece) (ps : List Piece) :
    (text ⟨g, p :: ps⟩).toList =
      g.toList ++ (p.token.toList ++ (text ⟨p.gap, ps⟩).toList) := by
  rw [text_cons, String.toList_append, String.toList_append]

/-! How a token and how a cutting begin. -/

/-- No token begins with a separator, and only a word begins with a character of words. -/
theorem Leads.exists_head (h : Leads p ps) : ∃ c cs, p.token.toList = c :: cs ∧
    isSeparator c = false ∧ (isWordChar c = true → IsWord p.token) := by
  have hquote {q : Char} (hq : isQuote q = true) (hw : isWordChar q = true) :
      IsWord p.token := by
    rw [isWordChar_of_isQuote hq] at hw
    contradiction
  rcases h.token with ⟨c, hc, ht⟩ | hw | ⟨q, cs, hq, _, _, ht⟩ | ⟨⟨q, cs, hq, _, ht⟩, _⟩
  · refine ⟨c, [], by simp [ht], not_isSeparator_of_isPunctuation hc, ?_⟩
    intro hw
    rw [isWordChar_of_isPunctuation hc] at hw
    contradiction
  · cases ht : p.token.toList with
    | nil => exact absurd (String.toList_eq_nil_iff.mp ht) hw.1
    | cons c cs =>
        have hc := hw.2 c (by simp [ht])
        exact ⟨c, cs, rfl, (isWordChar_iff.mp hc).1, fun _ => hw⟩
  · exact ⟨q, _, ht, not_isSeparator_of_isQuote hq, hquote hq⟩
  · exact ⟨q, _, ht, not_isSeparator_of_isQuote hq, hquote hq⟩

/-- A cutting begins with a word only if its first token is one and no gap is before it. -/
theorem IsLexical.startsWord_text (h : IsLexical ⟨g, ps⟩)
    (hw : ∀ q, ps.head? = some q → IsWord q.token → g ≠ "") :
    startsWord (text ⟨g, ps⟩).toList = false := by
  have hg : IsGap g := h.gaps g List.mem_cons_self
  cases ps with
  | nil =>
      rw [text_nil]
      cases hl : g.toList with
      | nil => rfl
      | cons c cs => exact isWordChar_of_isSeparator (hg c (by simp [hl]))
  | cons p ps =>
      obtain ⟨-, hp, -⟩ := isLexical_cons_iff.mp h
      obtain ⟨c, cs, hc, -, hword⟩ := hp.exists_head
      rw [toList_text_cons]
      cases hl : g.toList with
      | nil =>
          rw [hc, List.nil_append, List.cons_append]
          change isWordChar c = false
          rw [← Bool.not_eq_true]
          intro hcw
          exact hw p rfl (hword hcw) (String.toList_eq_nil_iff.mp hl)
      | cons d ds => exact isWordChar_of_isSeparator (hg d (by simp [hl]))

/-- The first gap is as long as separators go. -/
theorem IsLexical.lead_eq (h : IsLexical ⟨g, ps⟩) :
    g.toList = (text ⟨g, ps⟩).toList.takeWhile isSeparator := by
  have hg : ∀ c ∈ g.toList, isSeparator c = true := h.gaps g List.mem_cons_self
  cases ps with
  | nil =>
      rw [text_nil, ← List.append_nil g.toList, List.takeWhile_append_of_pos hg]
      rfl
  | cons p ps =>
      obtain ⟨-, hp, -⟩ := isLexical_cons_iff.mp h
      obtain ⟨c, cs, hc, hs, -⟩ := hp.exists_head
      rw [toList_text_cons, List.takeWhile_append_of_pos hg, hc, List.cons_append,
        List.takeWhile_cons_of_neg (by simp [hs]), List.append_nil]

/-! A scan finds the tokens of a lexical cutting. -/

/-- The scan finds the tokens of a cutting, whatever its gaps are. -/
theorem IsLexical.tokens_scanChars (h : IsLexical ⟨g, ps⟩) :
    (scanChars (text ⟨g, ps⟩).toList).tokens = ps.map (·.token) := by
  induction ps generalizing g with
  | nil =>
      rw [text_nil]
      exact (isLexical_nil_iff.mp h).spells.tokens
  | cons p ps ih =>
      obtain ⟨hg, hp, hrest⟩ := isLexical_cons_iff.mp h
      have hcomplete (hs : Spells p.token.toList [p.token])
          (ha : Apart p.token.toList (text ⟨p.gap, ps⟩).toList) :
          (scanChars (p.token.toList ++ (text ⟨p.gap, ps⟩).toList)).tokens =
            (p :: ps).map (·.token) := by
        rw [(tokens_scanChars_append hs ha).1, ih hrest]
        rfl
      rw [toList_text_cons, (tokens_scanChars_append hg.spells (.inl hg.endsWord)).1,
        List.nil_append]
      rcases hp.token with hm | hw | hc | ⟨hu, rfl, hgap⟩
      · exact hcomplete hm.spells (.inl hm.endsWord)
      · exact hcomplete hw.spells (.inr (hrest.startsWord_text (hp.words hw)))
      · exact hcomplete hc.spells (.inl hc.endsWord)
      -- nothing stands behind the literal that is not closed
      · rw [text_nil, hgap]
        simpa using hu.tokens_scanChars

/-! There is only one lexical cutting of a text. -/

/-- Both cuttings have the tokens of the scan, so that only the gaps are left to compare. -/
theorem IsLexical.eq_of_text_eq {k : String} {qs : List Piece} (h : IsLexical ⟨g, ps⟩)
    (h' : IsLexical ⟨k, qs⟩) (htext : text ⟨k, qs⟩ = text ⟨g, ps⟩) :
    (⟨k, qs⟩ : Cutting) = ⟨g, ps⟩ := by
  induction ps generalizing g k qs with
  | nil =>
      have htokens : qs.map (·.token) = [] := by
        rw [← h'.tokens_scanChars, htext, h.tokens_scanChars, List.map_nil]
      obtain rfl : qs = [] := List.map_eq_nil_iff.mp htokens
      rw [text_nil, text_nil] at htext
      rw [htext]
  | cons p ps ih =>
      have htokens : qs.map (·.token) = p.token :: ps.map (·.token) := by
        rw [← h'.tokens_scanChars, htext, h.tokens_scanChars, List.map_cons]
      obtain ⟨⟨token, gap⟩, qs, rfl, rfl, -⟩ := List.map_eq_cons_iff.mp htokens
      obtain rfl : k = g := by
        rw [← String.toList_inj, h.lead_eq, h'.lead_eq, htext]
      obtain ⟨-, -, hrest⟩ := isLexical_cons_iff.mp h
      obtain ⟨-, -, hrest'⟩ := isLexical_cons_iff.mp h'
      have hchars := congrArg String.toList htext
      rw [toList_text_cons, toList_text_cons] at hchars
      have hbehind := List.append_cancel_left (List.append_cancel_left hchars)
      have heq := ih hrest hrest' (String.toList_inj.mp hbehind)
      obtain ⟨rfl, rfl⟩ := Cutting.mk.inj heq
      rfl

/-! There is a lexical cutting of every text. -/

theorem IsLexical.separator {c : Char} (hc : isSeparator c = true) (h : IsLexical ⟨g, ps⟩) :
    IsLexical ⟨c.toString ++ g, ps⟩ := by
  have hcut (hg : IsGap g) : IsGap (c.toString ++ g) := by
    intro d hd
    rw [String.toList_append, List.mem_append] at hd
    rcases hd with hd | hd
    · obtain rfl : d = c := by simpa using hd
      exact hc
    · exact hg d hd
  cases ps with
  | nil => exact isLexical_nil_iff.mpr (hcut (isLexical_nil_iff.mp h))
  | cons p ps =>
      obtain ⟨hg, hp, hrest⟩ := isLexical_cons_iff.mp h
      exact isLexical_cons_iff.mpr ⟨hcut hg, hp, hrest⟩

theorem isGap_empty : IsGap "" := by
  simp [IsGap]

/-- A token that no word can run on from stands in front of any cutting. -/
theorem IsLexical.token {t : Token} (ht : IsMark t ∨ IsClosedLiteral t)
    (h : IsLexical ⟨g, ps⟩) : IsLexical ⟨"", ⟨t, g⟩ :: ps⟩ := by
  have hends : endsWord t.toList = false := ht.elim IsMark.endsWord IsClosedLiteral.endsWord
  refine isLexical_cons_iff.mpr ⟨isGap_empty, ⟨?_, ?_⟩, h⟩
  · exact ht.imp_right fun hc => .inr (.inl hc)
  · intro hw
    exact absurd hw (not_isWord hends)

theorem isLexical_unclosed {t : Token} (ht : IsUnclosedLiteral t) :
    IsLexical ⟨"", [⟨t, ""⟩]⟩ := by
  have hlast : IsLexical ⟨"", []⟩ := isLexical_nil_iff.mpr isGap_empty
  refine isLexical_cons_iff.mpr ⟨isGap_empty, ⟨.inr (.inr (.inr ⟨ht, rfl, rfl⟩)), ?_⟩, hlast⟩
  intro _ q hq
  cases hq

theorem isWord_toString_append {c : Char} (hc : isWordChar c = true) {t : Token}
    (ht : ∀ d ∈ t.toList, isWordChar d = true) : IsWord (c.toString ++ t) := by
  refine ⟨?_, ?_⟩
  · intro h
    have hl := congrArg String.toList h
    simp at hl
  · intro d hd
    rw [String.toList_append, List.mem_append] at hd
    rcases hd with hd | hd
    · obtain rfl : d = c := by simpa using hd
      exact hc
    · exact ht d hd

/-- A character of a word begins a word, or it goes in front of one. -/
theorem IsLexical.exists_wordChar {c : Char} (hc : isWordChar c = true)
    (h : IsLexical ⟨g, ps⟩) :
    ∃ d : Cutting, d.IsLexical ∧ d.text = c.toString ++ text ⟨g, ps⟩ := by
  by_cases hjoin : ∃ q qs, ps = q :: qs ∧ IsWord q.token ∧ g = ""
  · obtain ⟨q, qs, rfl, hq, rfl⟩ := hjoin
    obtain ⟨hg, hp, hrest⟩ := isLexical_cons_iff.mp h
    have hword := isWord_toString_append hc hq.2
    refine ⟨⟨"", ⟨c.toString ++ q.token, q.gap⟩ :: qs⟩, ?_, ?_⟩
    · exact isLexical_cons_iff.mpr ⟨hg, ⟨.inr (.inl hword), fun _ => hp.words hq⟩, hrest⟩
    · simp only [text_cons, String.empty_append, String.append_assoc]
  · have hword : IsWord c.toString := by
      simpa using isWord_toString_append (t := "") hc (by simp)
    refine ⟨⟨"", ⟨c.toString, g⟩ :: ps⟩, ?_, ?_⟩
    · refine isLexical_cons_iff.mpr ⟨isGap_empty, ⟨.inr (.inl hword), ?_⟩, h⟩
      intro _ q hq hqw hg
      obtain ⟨qs, rfl⟩ := List.head?_eq_some_iff.mp hq
      exact hjoin ⟨q, qs, rfl, hqw, hg⟩
    · rw [text_cons, String.empty_append]

theorem exists_isLexical (cs : List Char) : ∃ c : Cutting, c.IsLexical ∧ c.text.toList = cs := by
  -- on the length, since a literal takes all its characters at once
  induction hn : cs.length using Nat.strongRecOn generalizing cs with
  | ind n ih =>
      cases cs with
      | nil => exact ⟨⟨"", []⟩, isLexical_nil_iff.mpr isGap_empty, rfl⟩
      | cons c cs =>
          have hshorter : cs.length < n := by
            rw [← hn]
            exact Nat.lt_succ_self _
          obtain ⟨⟨g, ps⟩, h, ht⟩ := ih cs.length hshorter cs rfl
          rcases kind_of_char c with hc | hc | hc | hc
          · obtain ⟨d, hd, htext⟩ := h.exists_wordChar hc
            refine ⟨d, hd, ?_⟩
            rw [htext, String.toList_append, ht]
            simp
          · rcases guarded_or_closes c cs with hg | ⟨body, rest, rfl, hb, hl⟩
            · have hu : IsUnclosedLiteral (String.ofList (c :: cs)) := ⟨c, cs, hc, hg, by simp⟩
              exact ⟨_, isLexical_unclosed hu, by simp [text]⟩
            · have hclosed : IsClosedLiteral (String.ofList (c :: (body ++ [c]))) :=
                ⟨c, body, hc, hb, hl, by simp⟩
              have hfewer : rest.length < n := by
                rw [List.length_append, List.length_cons] at hshorter
                omega
              obtain ⟨⟨k, qs⟩, hrest, htrest⟩ := ih rest.length hfewer rest rfl
              refine ⟨_, hrest.token (.inr hclosed), ?_⟩
              rw [toList_text_cons, htrest]
              simp
          · have htext : text ⟨c.toString ++ g, ps⟩ = c.toString ++ text ⟨g, ps⟩ :=
              String.append_assoc ..
            refine ⟨_, h.separator hc, ?_⟩
            rw [htext, String.toList_append, ht]
            simp
          · refine ⟨_, h.token (.inl ⟨c, hc, rfl⟩), ?_⟩
            rw [toList_text_cons, ht]
            simp

/-- There is one and only one lexical cutting of a text, and it has the tokens that a scan
of the text finds. -/
theorem existsUnique_isLexical (text : String) :
    (∃! c : Cutting, c.IsLexical ∧ c.text = text) ∧
      ∀ c : Cutting, c.IsLexical → c.text = text → tokenize text = c.tokens := by
  refine ⟨?_, ?_⟩
  · obtain ⟨⟨g, ps⟩, h, ht⟩ := exists_isLexical text.toList
    rw [String.toList_inj] at ht
    refine ⟨⟨g, ps⟩, ⟨h, ht⟩, ?_⟩
    rintro ⟨k, qs⟩ ⟨h', ht'⟩
    exact h.eq_of_text_eq h' (ht'.trans ht.symm)
  · rintro ⟨g, ps⟩ h rfl
    exact h.tokens_scanChars

theorem existsUnique_isLexical_field :
    let c : Cutting := ⟨" ", [⟨"\x7b", ""⟩, ⟨"id", ", "⟩, ⟨"\x7d", ""⟩]⟩
    c.IsLexical ∧ tokenize " \x7bid, \x7d" = ["\x7b", "id", "\x7d"] := by
  intro c
  have hopening : IsMark "\x7b" := ⟨'\x7b', by decide, rfl⟩
  have hclosing : IsMark "\x7d" := ⟨'\x7d', by decide, rfl⟩
  have hlast : IsLexical ⟨", ", [⟨"\x7d", ""⟩]⟩ := by
    have hend := (isLexical_nil_iff.mpr isGap_empty).token (.inl hclosing)
    exact (hend.separator (c := ' ') (by decide)).separator (c := ',') (by decide)
  have hword : IsLexical ⟨"", [⟨"id", ", "⟩, ⟨"\x7d", ""⟩]⟩ := by
    have hid : IsWord "id" := ⟨by decide, List.all_eq_true.mp (by decide)⟩
    refine isLexical_cons_iff.mpr ⟨isGap_empty, ⟨.inr (.inl hid), ?_⟩, hlast⟩
    rintro - q - -
    decide
  have hlexical : c.IsLexical := (hword.token (.inl hopening)).separator (c := ' ') (by decide)
  obtain ⟨-, htokens⟩ := existsUnique_isLexical " \x7bid, \x7d"
  exact ⟨hlexical, htokens c hlexical (by decide +kernel)⟩

end Cutting

end QueryOutline
