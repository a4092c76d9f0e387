import Mathlib.Data.List.Chain
import QueryOutline.Proofs.Token.Cutting
import QueryOutline.Proofs.Written.Printing

/-!
Spacing of written documents. Tokens need nothing between them if one of the two is a mark or
a closed literal, since no word runs on into these. Three dots may also have the next word
attached, as in a spread, and are read like the two tokens apart. An equals sign and three dots
are no marks, though: they run on from the word before them, and the equals sign into the next.
-/

namespace QueryOutline

open Token Written

namespace Cutting

/-! Cuttings with empty gaps. -/

/-- The gaps are separators, and they are empty only between tokens that may touch. -/
structure IsSpaced (mayTouch : Token → Token → Bool) (c : Cutting) : Prop where
  gaps : ∀ g ∈ c.gaps, IsGap g
  apart : c.pieces.IsChain fun p q => p.gap = "" → mayTouch p.token q.token = true

def tightPieces (mayTouch : Token → Token → Bool) : List Token → List Piece
  | [] => []
  | [t] => [⟨t, ""⟩]
  | t :: u :: ts => ⟨t, if mayTouch t u then "" else " "⟩ :: tightPieces mayTouch (u :: ts)

/-- The tokens with a blank between those that may not touch. -/
def tight (mayTouch : Token → Token → Bool) (ts : List Token) : Cutting :=
  ⟨"", tightPieces mayTouch ts⟩

theorem tokens_tight (mayTouch : Token → Token → Bool) (ts : List Token) :
    (tight mayTouch ts).tokens = ts := by
  change (tightPieces mayTouch ts).map (·.token) = ts
  fun_induction tightPieces mayTouch ts with
  | case1 => rfl
  | case2 t => rfl
  | case3 t u ts ih => rw [List.map_cons, ih]

theorem isGap_of_mem_tightPieces {mayTouch : Token → Token → Bool} {ts : List Token} :
    ∀ p ∈ tightPieces mayTouch ts, IsGap p.gap := by
  fun_induction tightPieces mayTouch ts with
  | case1 => simp
  | case2 t => simpa using isGap_empty
  | case3 t u ts ih =>
      refine List.forall_mem_cons.mpr ⟨?_, ih⟩
      dsimp only
      split
      · exact isGap_empty
      · exact isGap_blank

/-- A document that is tight for some pairs of tokens is spaced for any more of them. -/
theorem isSpaced_tight {touch mayTouch : Token → Token → Bool}
    (h : ∀ t u, touch t u = true → mayTouch t u = true) (ts : List Token) :
    (tight touch ts).IsSpaced mayTouch := by
  refine ⟨?_, ?_⟩
  · simpa [gaps, tight] using ⟨isGap_empty, isGap_of_mem_tightPieces⟩
  · change (tightPieces touch ts).IsChain _
    fun_induction tightPieces touch ts with
    | case1 => exact .nil
    | case2 t => exact .singleton _
    | case3 t u ts ih =>
        refine List.isChain_cons.mpr ⟨fun q hq hgap => ?_, ih⟩
        have hfirst := congrArg List.head? (tokens_tight touch (u :: ts))
        rw [tokens, tight, List.head?_map, hq] at hfirst
        obtain rfl : q.token = u := Option.some.inj hfirst
        apply h
        by_contra ht
        simp [ht] at hgap

/-- The pieces, with every word attached to three dots that it touches. -/
def attach : List Piece → List Piece
  | [] => []
  | p :: ps =>
      match attach ps with
      | [] => [p]
      | q :: qs =>
          if p.token = "..." ∧ p.gap = "" ∧ isWord q.token = true then
            ⟨"..." ++ q.token, q.gap⟩ :: qs
          else p :: q :: qs

/-- Attaching a word moves no characters. -/
theorem text_attach (g : String) (ps : List Piece) : text ⟨g, attach ps⟩ = text ⟨g, ps⟩ := by
  induction ps generalizing g with
  | nil => rfl
  | cons p ps ih =>
      have hp : text ⟨g, p :: attach ps⟩ = text ⟨g, p :: ps⟩ := by
        rw [text_cons, text_cons, ih]
      rw [← hp, attach]
      split
      · next h => rw [h]
      · next q qs h =>
          rw [h]
          split
          · next hjoin =>
              obtain ⟨hdots, hgap, -⟩ := hjoin
              simp only [text_cons, hdots, hgap, String.empty_append, String.append_assoc]
          · rfl

theorem head?_attach {q : Piece} (hq : q.token ≠ "...") (qs : List Piece) :
    (attach (q :: qs)).head? = some q := by
  rw [attach]
  split
  · rfl
  · rw [if_neg fun h => hq h.1]
    rfl

end Cutting

namespace Written

def isMark (t : Token) : Bool :=
  match t.toList with
  | [c] => isPunctuation c
  | _ => false

/-- All that structures a document apart from names. -/
def isPunctuator (t : Token) : Bool :=
  isMark t || t == "=" || t == "..."

/-- The neighbours are kept apart by one of them. -/
def touches (isPunctuator : Token → Bool) (t u : Token) : Bool :=
  isPunctuator t || isPunctuator u || isClosedLiteral t || isClosedLiteral u

theorem touches_mono {p q : Token → Bool} (h : ∀ t, p t = true → q t = true) {t u : Token}
    (htouch : touches p t u = true) : touches q t u = true := by
  simp only [touches, Bool.or_eq_true] at htouch ⊢
  exact htouch.imp_left (·.imp_left (·.imp (h t) (h u)))

/-- The neighbours are kept apart, or the second one may be attached to the first one. -/
def mayTouch (t u : Token) : Bool :=
  touches isMark t u || t == "..."

theorem isMark_of_eq_true {t : Token} (h : isMark t = true) : IsMark t := by
  unfold isMark at h
  split at h
  · next c ht => exact ⟨c, h, by rw [← String.toList_inj, ht]; simp⟩
  · contradiction

theorem isWord_dots : Token.IsWord "..." :=
  isWord_iff.mp (by decide)

/-- Of two words only three dots may touch the other one. -/
theorem eq_dots_of_mayTouch {t u : Token} (h : mayTouch t u = true) (ht : Token.IsWord t)
    (hu : Token.IsWord u) : t = "..." := by
  have hmark {v : Token} (hv : Token.IsWord v) : isMark v ≠ true :=
    fun hm => not_isWord (isMark_of_eq_true hm).endsWord hv
  have hliteral {v : Token} (hv : Token.IsWord v) : isClosedLiteral v ≠ true :=
    fun hl => not_isWord (isClosedLiteral_of_eq_true hl).endsWord hv
  simpa [mayTouch, touches, hmark ht, hmark hu, hliteral ht, hliteral hu] using h

end Written

namespace Cutting

/-- Attaching makes no word of a mark or a literal. -/
theorem isWord_of_attach_eq_cons {r q : Piece} {rs qs : List Piece}
    (h : attach (r :: rs) = q :: qs) (hq : Token.IsWord q.token) : Token.IsWord r.token := by
  by_contra hr
  have hdots : r.token ≠ "..." := fun heq => hr (heq ▸ isWord_dots)
  have hfirst := head?_attach hdots rs
  rw [h] at hfirst
  obtain rfl := Option.some.inj hfirst
  exact hr hq

/-- With the words attached the cutting of a spaced text is lexical. -/
theorem isLexical_attach {g : String} {ps : List Piece}
    (h : IsSpaced mayTouch ⟨g, ps⟩) (hps : ∀ p ∈ ps, IsComplete p.token) :
    IsLexical ⟨g, attach ps⟩ := by
  induction ps generalizing g with
  | nil => exact isLexical_nil_iff.mpr (h.gaps g List.mem_cons_self)
  | cons p ps ih =>
      obtain ⟨hp, hps⟩ := List.forall_mem_cons.mp hps
      obtain ⟨hg, hgaps⟩ := List.forall_mem_cons.mp h.gaps
      obtain ⟨hnext, hapart⟩ := List.isChain_cons.mp h.apart
      have hrest : IsLexical ⟨p.gap, attach ps⟩ := ih ⟨hgaps, hapart⟩ hps
      have htoken : IsMark p.token ∨ Token.IsWord p.token ∨ Token.IsClosedLiteral p.token ∨
          (IsUnclosedLiteral p.token ∧ attach ps = [] ∧ p.gap = "") :=
        hp.imp_right (·.imp_right .inl)
      rw [attach]
      split
      · next hnil =>
          rw [hnil] at hrest htoken
          exact isLexical_cons_iff.mpr ⟨hg, ⟨htoken, by simp⟩, hrest⟩
      · next q qs hqs =>
          rw [hqs] at hrest htoken
          obtain ⟨-, hq, hbehind⟩ := isLexical_cons_iff.mp hrest
          split
          · next hjoin =>
              have hword : Token.IsWord q.token := isWord_iff.mp hjoin.2.2
              have hattached : Token.IsWord ("..." ++ q.token) :=
                isWord_dots_append hword
              exact isLexical_cons_iff.mpr
                ⟨hg, ⟨.inr (.inl hattached), fun _ => hq.words hword⟩, hbehind⟩
          · next hjoin =>
              refine isLexical_cons_iff.mpr ⟨hg, ⟨htoken, ?_⟩, hrest⟩
              -- two words that touch would have been joined
              intro hpw q' hq' hqw hgap
              obtain rfl : q = q' := Option.some.inj hq'
              apply hjoin
              cases ps with
              | nil => cases hqs
              | cons r rs =>
                  have hr : Token.IsWord r.token := isWord_of_attach_eq_cons hqs hqw
                  exact ⟨eq_dots_of_mayTouch (hnext r rfl hgap) hpw hr, hgap, isWord_iff.mpr hqw⟩

end Cutting

namespace Written

/-! Tokens with a word attached. -/

/-- The second tokens are the first ones, but some words are attached to three dots. -/
inductive Attached : List Token → List Token → Prop where
  | nil : Attached [] []
  | keep {t : Token} {ts us : List Token} (rest : Attached ts us) : Attached (t :: ts) (t :: us)
  | join {u : Token} {ts us : List Token} (word : Written.isWord u = true)
      (rest : Attached ts (u :: us)) : Attached ("..." :: ts) (("..." ++ u) :: us)

/-- Attaching joins words to dots and does nothing else to the tokens. -/
theorem attached_attach (ps : List Cutting.Piece) :
    Attached (ps.map (·.token)) ((Cutting.attach ps).map (·.token)) := by
  fun_induction Cutting.attach ps with
  | case1 => exact .nil
  | case2 p ps h ih =>
      rw [h] at ih
      exact .keep ih
  | case3 p ps q qs h hjoin ih =>
      obtain ⟨hdots, -, hword⟩ := hjoin
      rw [h] at ih
      rw [List.map_cons, hdots]
      exact .join hword ih
  | case4 p ps q qs h _ ih =>
      rw [h] at ih
      exact .keep ih

namespace Attached

variable {t : Token} {ts us front rest : List Token}

theorem of_ne (ht : t ≠ "...") (h : Attached (t :: ts) us) :
    ∃ vs, us = t :: vs ∧ Attached ts vs := by
  cases h with
  | keep rest => exact ⟨_, rfl, rest⟩
  | join _ _ => contradiction

theorem of_append (hfront : ∀ t ∈ front, t ≠ "...") (h : Attached (front ++ rest) us) :
    ∃ vs, us = front ++ vs ∧ Attached rest vs := by
  induction front generalizing us with
  | nil => exact ⟨us, rfl, h⟩
  | cons t front ih =>
      obtain ⟨ht, hfront⟩ := List.forall_mem_cons.mp hfront
      obtain ⟨ws, rfl, hws⟩ := of_ne ht h
      obtain ⟨vs, rfl, hvs⟩ := ih hfront hws
      exact ⟨vs, rfl, hvs⟩

/-- What stands behind three dots is apart from them, or it is a word and attached. -/
theorem of_dots (ht : t ≠ "...") (h : Attached ("..." :: t :: ts) us) :
    ∃ vs, Attached ts vs ∧
      (us = "..." :: t :: vs ∨ Written.isWord t = true ∧ us = ("..." ++ t) :: vs) := by
  cases h with
  | keep rest =>
      obtain ⟨vs, rfl, hvs⟩ := of_ne ht rest
      exact ⟨vs, hvs, .inl rfl⟩
  | join word rest =>
      obtain ⟨vs, heq, hvs⟩ := of_ne ht rest
      obtain ⟨rfl, rfl⟩ := List.cons.inj heq
      exact ⟨_, hvs, .inr ⟨word, rfl⟩⟩

end Attached

/-! Documents with words attached. -/

open Attached

/-- Whatever is attached in tokens that begin with a construct, they still begin with one that
differs from it only in what is attached. -/
def Rejoins {α : Type} (tokens : α → List Token) (normal : α → α) (a : α) : Prop :=
  ∀ ts us, Attached (tokens a ++ ts) us →
    ∃ b vs, us = tokens b ++ vs ∧ Attached ts vs ∧ normal b = normal a

theorem ne_dots_syntax : HoldsOfSyntax (· ≠ "...") := by
  refine ⟨?_, fun n => n.text_ne (by decide)⟩
  rintro t ⟨c, -, rfl⟩ hc
  have hl := congrArg (List.length ∘ String.toList) hc
  simp at hl

theorem Name.dots_append_ne (n : Name) : "..." ++ n.text ≠ "..." := by
  intro h
  have hlength := congrArg String.length h
  rw [String.length_append, Nat.add_eq_left, String.length_eq_zero_iff] at hlength
  exact n.text_ne (by decide) hlength

theorem Attached.of_braces {b : Block} (hb : Rejoins Block.tokens Block.normal b)
    {ts us : List Token} (h : Attached ("\x7b" :: (b.tokens ++ "\x7d" :: ts)) us) :
    ∃ (e : Block) (vs : List Token), us = "\x7b" :: (e.tokens ++ "\x7d" :: vs) ∧
      Attached ts vs ∧ e.normal = b.normal := by
  obtain ⟨inside, rfl, hinside⟩ := h.of_ne (by decide)
  obtain ⟨e, behind, rfl, hbehind, he⟩ := hb _ _ hinside
  obtain ⟨vs, rfl, hvs⟩ := hbehind.of_ne (by decide)
  exact ⟨e, vs, rfl, hvs, he⟩

theorem Opening.of_attached (o : Opening) {ts us : List Token}
    (h : Attached (o.tokens ++ "\x7b" :: ts) us) :
    ∃ (e : Opening) (vs : List Token), us = e.tokens ++ vs ∧ Attached ("\x7b" :: ts) vs ∧
      e.normal = o.normal := by
  cases o with
  | bare =>
      obtain ⟨vs, hvs, rfl | ⟨hword, -⟩⟩ := of_dots (by decide) h
      · exact ⟨.bare, _, rfl, hvs.keep, rfl⟩
      · contradiction
  | apart type =>
      have htype : type.text ≠ "..." := type.text_ne (by decide)
      obtain ⟨us, hus, rfl | ⟨-, rfl⟩⟩ := of_dots (by decide) h
      · obtain ⟨vs, rfl, hvs⟩ := hus.of_ne htype
        exact ⟨.apart type, vs, rfl, hvs, rfl⟩
      · obtain ⟨vs, rfl, hvs⟩ := hus.of_ne htype
        exact ⟨.attached type, vs, rfl, hvs, rfl⟩
  | attached type =>
      obtain ⟨us, rfl, hus⟩ := of_ne (by decide) h
      obtain ⟨vs, rfl, hvs⟩ := hus.of_ne (type.text_ne (by decide))
      exact ⟨.attached type, vs, rfl, hvs, rfl⟩

mutual

theorem Selection.rejoins (s : Selection) (hs : ∀ x ∈ s.scalars, x.text ≠ "...") :
    Rejoins Selection.tokens Selection.normal s := by
  intro ts us h
  cases s with
  | leaf f =>
      obtain ⟨vs, rfl, hvs⟩ := h.of_append (f.forall_mem_tokens ne_dots_syntax hs)
      exact ⟨.leaf f, vs, rfl, hvs, rfl⟩
  | field f b =>
      rw [Selection.scalars, List.forall_mem_append] at hs
      simp only [Selection.tokens, List.append_assoc, List.cons_append, List.nil_append] at h
      obtain ⟨behind, rfl, hbehind⟩ := h.of_append (f.forall_mem_tokens ne_dots_syntax hs.1)
      obtain ⟨e, vs, rfl, hvs, he⟩ := hbehind.of_braces (b.rejoins hs.2)
      exact ⟨.field f e, vs, by simp [Selection.tokens], hvs, by simp [Selection.normal, he]⟩
  | spread isAttached n hn =>
      cases isAttached with
      | true =>
          obtain ⟨vs, rfl, hvs⟩ := of_ne n.dots_append_ne h
          exact ⟨.spread true n hn, vs, rfl, hvs, rfl⟩
      | false =>
          obtain ⟨vs, hvs, rfl | ⟨-, rfl⟩⟩ := of_dots (n.text_ne (by decide)) h
          · exact ⟨.spread false n hn, vs, rfl, hvs, rfl⟩
          · exact ⟨.spread true n hn, vs, rfl, hvs, rfl⟩
  | inlineFragment o b =>
      simp only [Selection.tokens, List.append_assoc, List.cons_append, List.nil_append] at h
      obtain ⟨o', behind, rfl, hbehind, ho⟩ := o.of_attached h
      obtain ⟨e, vs, rfl, hvs, he⟩ := hbehind.of_braces (b.rejoins hs)
      exact ⟨.inlineFragment o' e, vs, by simp [Selection.tokens], hvs,
        by simp [Selection.normal, ho, he]⟩

theorem Block.rejoins (b : Block) (hs : ∀ x ∈ b.scalars, x.text ≠ "...") :
    Rejoins Block.tokens Block.normal b := by
  intro ts us h
  cases b with
  | last s =>
      obtain ⟨e, vs, rfl, hvs, he⟩ := s.rejoins hs ts us h
      exact ⟨.last e, vs, rfl, hvs, by simp [Block.normal, he]⟩
  | cons s b =>
      rw [Block.scalars, List.forall_mem_append] at hs
      rw [Block.tokens, List.append_assoc] at h
      obtain ⟨e, behind, rfl, hbehind, he⟩ := s.rejoins hs.1 _ _ h
      obtain ⟨d, vs, rfl, hvs, hd⟩ := b.rejoins hs.2 _ _ hbehind
      exact ⟨.cons e d, vs, by simp [Block.tokens], hvs, by simp [Block.normal, he, hd]⟩

end

def Definition.withBlock (d : Definition) (b : Block) : Definition :=
  match d with
  | .operation type name variableDefinitions _ => .operation type name variableDefinitions b
  | .bare _ => .bare b
  | .fragment name type _ => .fragment name type b

theorem Definition.rejoins (d : Definition) (hs : ∀ x ∈ d.scalars, x.text ≠ "...") :
    Rejoins Definition.tokens Definition.normal d := by
  intro ts us h
  have hblock : ∀ x ∈ d.block.scalars, x.text ≠ "..." := by
    cases d with
    | operation type name vs b => exact (List.forall_mem_append.mp hs).2
    | bare b | fragment name type b => exact hs
  rw [d.tokens_eq, List.append_assoc, List.cons_append, List.append_assoc] at h
  obtain ⟨behind, rfl, hbehind⟩ := h.of_append (d.forall_mem_front ne_dots_syntax (by decide) hs)
  obtain ⟨e, vs, rfl, hvs, he⟩ := hbehind.of_braces (d.block.rejoins hblock)
  refine ⟨d.withBlock e, vs, ?_, hvs, ?_⟩
  · cases d <;> simp [withBlock, tokens, front]
  · cases d <;> simpa [withBlock, normal, block] using he

/-- With words attached the tokens still are those of definitions, which have the same normal
forms. -/
theorem exists_definitions_of_attached (ds : List Definition)
    (hs : ∀ d ∈ ds, ∀ x ∈ d.scalars, x.text ≠ "...") {us : List Token}
    (h : Attached (ds.flatMap Definition.tokens) us) :
    ∃ es : List Definition, us = es.flatMap Definition.tokens ∧
      es.map Definition.node = ds.map Definition.node := by
  induction ds generalizing us with
  | nil =>
      cases h
      exact ⟨[], rfl, rfl⟩
  | cons d ds ih =>
      obtain ⟨hd, hds⟩ := List.forall_mem_cons.mp hs
      rw [List.flatMap_cons] at h
      obtain ⟨e, others, rfl, hothers, he⟩ := d.rejoins hd _ _ h
      obtain ⟨es, rfl, hes⟩ := ih hds hothers
      refine ⟨e :: es, rfl, ?_⟩
      rw [List.map_cons, List.map_cons, hes, ← e.node_normal, he, d.node_normal]

/-- The text of a spaced document is read as the nodes that the document denotes. -/
theorem forest_parse_of_isSpaced {ds : List Definition}
    (hs : ∀ d ∈ ds, ∀ x ∈ d.scalars, x.text ≠ "...") {c : Cutting} (hc : c.IsSpaced mayTouch)
    (htokens : c.tokens = ds.flatMap Definition.tokens) :
    (Document.parse c.text).forest = .ofList (ds.map Definition.node) := by
  obtain ⟨g, ps⟩ := c
  have hcomplete : ∀ p ∈ ps, IsComplete p.token := by
    intro p hp
    have ht : p.token ∈ ds.flatMap Definition.tokens := htokens ▸ List.mem_map_of_mem hp
    obtain ⟨d, -, ht⟩ := List.mem_flatMap.mp ht
    exact d.isComplete p.token ht
  have hscan : tokenize (Cutting.text ⟨g, ps⟩) = (Cutting.attach ps).map (·.token) := by
    rw [← Cutting.text_attach]
    exact (Cutting.isLexical_attach hc hcomplete).tokens_scanChars
  have hattached := attached_attach ps
  rw [show ps.map (·.token) = _ from htokens] at hattached
  obtain ⟨es, hes, hnodes⟩ := exists_definitions_of_attached ds hs hattached
  change (parseDefinitions (tokenize (Cutting.text ⟨g, ps⟩))).forest = _
  rw [hscan, hes, forest_parseDefinitions_tokens, hnodes]

/-- However a document is spaced, its text is read as the same nodes, if three dots are not a
scalar of it: those could attach the name of the next argument. -/
theorem forest_parse_spaced (ds : List Definition)
    (hs : ∀ d ∈ ds, ∀ x ∈ d.scalars, x.text ≠ "...") (c c' : Cutting)
    (hc : c.IsSpaced mayTouch) (hc' : c'.IsSpaced mayTouch)
    (htokens : c.tokens = ds.flatMap Definition.tokens)
    (htokens' : c'.tokens = ds.flatMap Definition.tokens) :
    (Document.parse c.text).forest = .ofList (ds.map Definition.node) ∧
      (Document.parse c.text).forest = (Document.parse c'.text).forest := by
  have h := forest_parse_of_isSpaced hs hc htokens
  have h' := forest_parse_of_isSpaced hs hc' htokens'
  exact ⟨h, h.trans h'.symm⟩

/-- The text without any gap that it can do without, and the one with all gaps. -/
theorem forest_parse_spaced_petQuery :
    let ts := petQuery.flatMap Definition.tokens
    let c := Cutting.tight mayTouch ts
    let c' := Cutting.tight (fun _ _ => false) ts
    (∀ d ∈ petQuery, ∀ x ∈ d.scalars, x.text ≠ "...") ∧ c.IsSpaced mayTouch ∧
      c'.IsSpaced mayTouch ∧ c.tokens = ts ∧ c'.tokens = ts ∧
      (Document.parse c.text).forest = .ofList (petQuery.map Definition.node) ∧
      (Document.parse c.text).forest = (Document.parse c'.text).forest := by
  intro ts c c'
  have hs : ∀ d ∈ petQuery, ∀ x ∈ d.scalars, x.text ≠ "..." := by decide
  have hc : c.IsSpaced mayTouch := Cutting.isSpaced_tight (fun _ _ h => h) ts
  have hc' : c'.IsSpaced mayTouch := Cutting.isSpaced_tight (by simp) ts
  have htokens : c.tokens = ts := Cutting.tokens_tight _ ts
  have htokens' : c'.tokens = ts := Cutting.tokens_tight _ ts
  exact ⟨hs, hc, hc', htokens, htokens',
    forest_parse_spaced petQuery hs c c' hc hc' htokens htokens'⟩

/-- A query with a default for its variable, and with a spread behind a field. -/
def spreadQuery : List Definition :=
  let pets : Selection := .leaf { name := ⟨"pets", by decide⟩ }
  let rest : Selection := .spread false ⟨"Rest", by decide⟩ (by decide)
  [.operation .query none [⟨⟨"size", by decide⟩, .named ⟨"Float", by decide⟩,
    some ⟨"3", by decide⟩⟩] (.cons pets (.last rest))]

/-- An equals sign and three dots become part of the words that they touch. -/
theorem forest_parse_ne_of_touches :
    let ts := spreadQuery.flatMap Definition.tokens
    let apart := Cutting.tight (fun _ _ => false) ts
    let equals := Cutting.tight (touches fun t => isMark t || t == "=") ts
    let dots := Cutting.tight (touches fun t => isMark t || t == "...") ts
    (∀ d ∈ spreadQuery, ∀ x ∈ d.scalars, x.text ≠ "...") ∧
      (apart.IsSpaced (touches isPunctuator) ∧ equals.IsSpaced (touches isPunctuator) ∧
        dots.IsSpaced (touches isPunctuator)) ∧
      (apart.tokens = ts ∧ equals.tokens = ts ∧ dots.tokens = ts) ∧
      (equals.text = "query($size:Float=3)\x7bpets ... Rest\x7d" ∧
        (Document.parse equals.text).forest ≠ (Document.parse apart.text).forest) ∧
      dots.text = "query($size:Float = 3)\x7bpets...Rest\x7d" ∧
        (Document.parse dots.text).forest ≠ (Document.parse apart.text).forest := by
  intro ts apart equals dots
  have hequals (t : Token) (h : (isMark t || t == "=") = true) : isPunctuator t = true := by
    rw [isPunctuator, h, Bool.true_or]
  have hdots (t : Token) (h : (isMark t || t == "...") = true) : isPunctuator t = true := by
    simp only [isPunctuator, Bool.or_eq_true] at h ⊢
    exact h.imp_left .inl
  refine ⟨by decide, ⟨Cutting.isSpaced_tight (by simp) ts,
    Cutting.isSpaced_tight (fun _ _ => touches_mono hequals) ts,
    Cutting.isSpaced_tight (fun _ _ => touches_mono hdots) ts⟩,
    ⟨Cutting.tokens_tight _ ts, Cutting.tokens_tight _ ts, Cutting.tokens_tight _ ts⟩, ?_⟩
  decide +kernel

end Written

end QueryOutline
