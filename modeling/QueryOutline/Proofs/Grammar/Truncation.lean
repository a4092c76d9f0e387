import Mathlib.Data.List.Infix
import QueryOutline.Document
import QueryOutline.Proofs.Grammar.Accounting
import QueryOutline.Proofs.Grammar.Steady
import QueryOutline.Proofs.Token.Growth

/-!
Documents that are cut off. What is behind the cut can only change the definition that
the cut goes through: the rules for those in front of it have stopped before the last
token. The last token itself may go on behind the cut, but it does not become a mark of
the grammar, nor has it been one.
-/

namespace QueryOutline

namespace Rule

/-- At the end of the tokens, a token can stand for another one that begins no other
definition. -/
def Replaceable (t u : Token) : Prop :=
  t = u ∨ (t ≠ ":" ∧ u ≠ ":") ∧ (t ∈ starters → IsPlain t ∧ IsPlain u)

variable {s t u : Token} {c : Char}

/-- A mark is punctuation, the equals sign or the word `on`. -/
theorem isPlain_of_head? (h : t.toList.head? = some c) (hc : Token.isPunctuation c = false)
    (hne : c ≠ '=' ∧ c ≠ 'o') : IsPlain t := by
  intro ht
  have hall : ∀ s ∈ marks, ∀ d, s.toList.head? = some d →
      Token.isPunctuation d = true ∨ d = '=' ∨ d = 'o' := by
    simp [marks, Token.isPunctuation]
  have h := hall t ht c h
  simp [hc, hne] at h

theorem replaceable_of_growsInto (h : Token.GrowsInto t u) : Replaceable t u := by
  obtain ⟨c, ht, hu, hc⟩ := h.exists_first
  have hcolon : ∀ s : Token, s.toList.head? = some c → s ≠ ":" := by
    rintro s hs rfl
    obtain rfl : ':' = c := by simpa using hs
    simp [Token.isPunctuation] at hc
  refine .inr ⟨⟨hcolon t ht, hcolon u hu⟩, fun hstart => ?_⟩
  have hall : ∀ s ∈ starters, ∀ d, s.toList.head? = some d → d ≠ '=' ∧ d ≠ 'o' := by
    simp [starters]
  have hne := hall t hstart c ht
  exact ⟨isPlain_of_head? ht hc hne, isPlain_of_head? hu hc hne⟩

/-- The rule for a definition takes the last token, or it stops in front of it. In front of
another token it stops as well, unless the last one begins no definition anyway. -/
theorem read_definition_replace {rule : Rule Node} (hd : definition? s = some rule)
    (h : Replaceable t u) (behind ts : List Token) :
    (rule.read (ts ++ [t])).rest = [] ∨
      ((rule.read (ts ++ [t])).rest = [t] ∧ t ≠ u ∧ t ∉ starters) ∨
      ∃ n left, rule.read (ts ++ [t]) = ⟨n, left ++ [t]⟩ ∧
        rule.read (ts ++ u :: behind) = ⟨n, left ++ u :: behind⟩ := by
  rcases List.eq_nil_or_concat (rule.read (ts ++ [t])).rest with hrest | ⟨left, last, hrest⟩
  · exact .inl hrest
  · rw [List.concat_eq_append] at hrest
    have hsuffix : left ++ [last] <:+ ts ++ [t] := by
      rw [← hrest]
      exact rule.rest_suffix _
    obtain rfl : last = t := by
      have hlast := hsuffix.getLast (by simp)
      simpa using hlast
    have hread : rule.read (ts ++ [last]) = ⟨(rule.read (ts ++ [last])).result, left ++ [last]⟩ :=
      congrArg (Parsed.mk _) hrest
    by_cases hx : Exchangeable left last u
    · exact .inr (.inr ⟨_, left, hread, steady_definition? hd behind hx hread⟩)
    · refine .inr (.inl ?_)
      rcases h with rfl | ⟨hcolon, hstart⟩
      · exact absurd (.inl rfl) hx
      · have hl : left = [] := by
          by_contra hl
          exact hx (.inr ⟨hcolon, .inl hl⟩)
        rw [hl] at hrest
        exact ⟨hrest, fun heq => hx (.inl heq), fun ht => hx (.inr ⟨hcolon, .inr (hstart ht)⟩)⟩

end Rule

namespace Definitions

variable {t u : Token}

theorem forest_readFrom_of_notMem (h : t ∉ Rule.starters) (position : Nat) :
    (readFrom position [t]).forest = .nil := by
  rw [← Rule.isSome_definition?_iff, Bool.not_eq_true, Option.isSome_eq_false_iff,
    Option.isNone_iff_eq_none] at h
  rw [readFrom_cons_of_none h]
  simp [readFrom]

theorem dropLast_toList_cons (root : Head) (below : Forest Head) {f g : Forest Head}
    (h : f.toList.dropLast <+: g.toList) :
    (Forest.cons root below f).toList.dropLast <+: (Forest.cons root below g).toList := by
  cases f with
  | nil => exact List.nil_prefix
  | cons r b f => exact List.cons_prefix_cons.mpr ⟨rfl, h⟩

/-- All definitions but the last are there whatever follows the tokens, and even if the
last token was another one. What is skipped among the tokens is skipped in any case. -/
theorem readFrom_append_replace (h : Rule.Replaceable t u) (behind : List Token)
    (position : Nat) (us : List Token) : ∀ ts, us = ts ++ [t] →
      (readFrom position us).forest.toList.dropLast <+:
          (readFrom position (ts ++ u :: behind)).forest.toList ∧
        (t = u → (readFrom position us).skipped <+:
          (readFrom position (ts ++ u :: behind)).skipped) := by
  fun_induction readFrom position us with
  | case1 position =>
      intro ts hus
      simp at hus
  | case2 position s ss hd others ih =>
      intro ts hus
      cases ts with
      | nil =>
          obtain ⟨rfl, rfl⟩ := List.cons.inj hus
          refine ⟨by simp [others, readFrom, Forest.toList], ?_⟩
          rintro rfl
          rw [List.nil_append, readFrom_cons_of_none hd]
          simp [others, readFrom]
      | cons s ts =>
          obtain ⟨rfl, rfl⟩ := List.cons.inj hus
          obtain ⟨hforest, hskipped⟩ := ih ts rfl
          rw [List.cons_append, readFrom_cons_of_none hd]
          exact ⟨hforest, fun heq => List.cons_prefix_cons.mpr ⟨rfl, hskipped heq⟩⟩
  | case3 position s ss rule hd found others ih =>
      intro ts hus
      cases ts with
      | nil =>
          obtain ⟨rfl, rfl⟩ := List.cons.inj hus
          have hrest : found.rest = [] := List.suffix_nil.mp (rule.rest_suffix [])
          have hothers : others = {} := by simp [others, hrest, readFrom]
          rw [hothers]
          exact ⟨List.nil_prefix, fun _ => List.nil_prefix⟩
      | cons s ts =>
          obtain ⟨rfl, rfl⟩ := List.cons.inj hus
          rcases Rule.read_definition_replace hd h behind ts with
            hrest | ⟨hrest, hne, hstart⟩ | ⟨n, left, hread, hread'⟩
          -- the definition takes the last token, so it is the last one itself
          · have hothers : others = {} := by
              change readFrom _ (rule.read (ts ++ [t])).rest = {}
              rw [hrest, readFrom]
            rw [hothers]
            exact ⟨List.nil_prefix, fun _ => List.nil_prefix⟩
          -- only the last token is left, and it begins no definition
          · have hothers : others.forest = .nil := by
              change (readFrom _ (rule.read (ts ++ [t])).rest).forest = .nil
              rw [hrest, forest_readFrom_of_notMem hstart]
            rw [hothers]
            exact ⟨List.nil_prefix, fun heq => absurd heq hne⟩
          · have hrest : found.rest = left ++ [t] := congrArg Parsed.rest hread
            have hlength : (ts ++ u :: behind).length - (left ++ u :: behind).length =
                (ts ++ [t]).length - found.rest.length := by
              simp [hrest]
              omega
            obtain ⟨hforest, hskipped⟩ := ih left hrest
            have hfound : found.result = n := congrArg Parsed.result hread
            rw [List.cons_append, readFrom_cons_of_some hd hread', hlength, hfound]
            exact ⟨dropLast_toList_cons _ _ hforest, hskipped⟩

end Definitions

/-- Of a document that is cut off, all definitions but the last are those of the whole
document. So are the skipped tokens, if the cut is between two tokens. -/
theorem truncation_keeps_definitions :
    (∀ a b : String, (Document.parse a).forest.toList.dropLast <+:
        (Document.parse (a ++ b)).forest.toList) ∧
      ∀ ts us : List Token,
        (parseDefinitions ts).forest.toList.dropLast <+:
            (parseDefinitions (ts ++ us)).forest.toList ∧
          (parseDefinitions ts).skipped <+: (parseDefinitions (ts ++ us)).skipped := by
  have htokens (ts us : List Token) :
      (parseDefinitions ts).forest.toList.dropLast <+:
          (parseDefinitions (ts ++ us)).forest.toList ∧
        (parseDefinitions ts).skipped <+: (parseDefinitions (ts ++ us)).skipped := by
    rcases List.eq_nil_or_concat ts with rfl | ⟨ts, t, rfl⟩
    · simp [parseDefinitions, Definitions.readFrom, Forest.toList]
    · rw [List.concat_eq_append, List.append_assoc]
      obtain ⟨hforest, hskipped⟩ :=
        Definitions.readFrom_append_replace (.inl rfl : Rule.Replaceable t t) us 0 _ ts rfl
      exact ⟨hforest, hskipped rfl⟩
  refine ⟨fun a b => ?_, htokens⟩
  rw [Document.parse, Document.parse]
  rcases Token.tokenize_append a b with ⟨us, hb⟩ | ⟨ts, t, u, more, ha, hb, hgrowth⟩
  · rw [← hb]
    exact (htokens (tokenize a) us).1
  · have h := Rule.replaceable_of_growsInto hgrowth
    rw [ha, hb]
    exact (Definitions.readFrom_append_replace h more 0 _ ts rfl).1

end QueryOutline
