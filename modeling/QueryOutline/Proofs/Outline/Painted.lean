import QueryOutline.Outline.Header
import QueryOutline.Proofs.Outline.Matches

/-!
Rows under a search. A search cuts one piece out of a text, at the first place where the term
occurs, and sets it apart. It changes neither what a header says nor the role in which any
character of it is shown.
-/

namespace QueryOutline

namespace Text

/-- The term occurs at the offset, and at no smaller one. -/
structure FirstAt (term cs : List Char) (offset : Nat) : Prop where
  occurs : term <+: cs.drop offset
  first : ∀ smaller < offset, ¬ term <+: cs.drop smaller

variable {term cs before after : List Char}

theorem FirstAt.start (h : term <+: cs) : FirstAt term cs 0 :=
  ⟨h, fun _ hlt => absurd hlt (Nat.not_lt_zero _)⟩

theorem FirstAt.cons {offset : Nat} {c : Char} (hc : ¬ term <+: c :: cs)
    (h : FirstAt term cs offset) : FirstAt term (c :: cs) (offset + 1) where
  occurs := h.occurs
  first smaller hlt := by
    cases smaller with
    | zero => exact hc
    | succ smaller => exact h.first smaller (Nat.lt_of_succ_lt_succ hlt)

theorem eq_of_splitAtFirst? (h : splitAtFirst? term cs = some (before, after)) :
    cs = before ++ (term ++ after) := by
  fun_induction splitAtFirst? term cs generalizing before after with
  | case1 ht =>
      obtain ⟨rfl, rfl⟩ := Prod.mk.inj (Option.some.inj h)
      simpa using ht
  | case2 => contradiction
  | case3 c cs ht =>
      obtain ⟨rfl, rfl⟩ := Prod.mk.inj (Option.some.inj h)
      have happend := List.prefix_iff_eq_append.mp (List.isPrefixOf_iff_prefix.mp ht)
      exact happend.symm
  | case4 c cs _ ih =>
      obtain ⟨⟨before, after⟩, hcs, heq⟩ := Option.map_eq_some_iff.mp h
      obtain ⟨rfl, rfl⟩ := Prod.mk.inj heq
      rw [ih hcs]
      rfl

/-- A text is split where the term first occurs. -/
theorem firstAt_of_splitAtFirst? (h : splitAtFirst? term cs = some (before, after)) :
    FirstAt term cs before.length := by
  fun_induction splitAtFirst? term cs generalizing before after with
  | case1 ht =>
      obtain ⟨rfl, rfl⟩ := Prod.mk.inj (Option.some.inj h)
      rw [List.isEmpty_iff.mp ht]
      exact .start (List.prefix_refl [])
  | case2 => contradiction
  | case3 c cs ht =>
      obtain ⟨rfl, rfl⟩ := Prod.mk.inj (Option.some.inj h)
      exact .start (List.isPrefixOf_iff_prefix.mp ht)
  | case4 c cs ht ih =>
      obtain ⟨⟨before, after⟩, hcs, heq⟩ := Option.map_eq_some_iff.mp h
      obtain ⟨rfl, rfl⟩ := Prod.mk.inj heq
      exact (ih hcs).cons (mt List.isPrefixOf_iff_prefix.mpr ht)

end Text

namespace Segment

def chars (gs : List Segment) : List Char :=
  gs.flatMap (·.text.toList)

@[simp] theorem chars_nil : chars [] = [] := rfl

@[simp] theorem chars_cons (g : Segment) (gs : List Segment) :
    chars (g :: gs) = g.text.toList ++ chars gs := rfl

@[simp] theorem chars_append (gs hs : List Segment) : chars (gs ++ hs) = chars gs ++ chars hs :=
  List.flatMap_append

@[simp] theorem chars_part (role : Role) (cs : List Char) : chars (part role cs) = cs := by
  cases cs with
  | nil => rfl
  | cons c cs => simp [part]

theorem toList_join_text (gs : List Segment) :
    (String.join (gs.map (·.text))).toList = chars gs := by
  rw [String.toList_join, List.flatMap_map]
  rfl

def painted (gs : List Segment) : List (Char × Role) :=
  gs.flatMap fun g => g.text.toList.map (·, g.role)

@[simp] theorem painted_nil : painted [] = [] := rfl

@[simp] theorem painted_cons (g : Segment) (gs : List Segment) :
    painted (g :: gs) = g.text.toList.map (·, g.role) ++ painted gs := rfl

@[simp] theorem painted_append (gs hs : List Segment) :
    painted (gs ++ hs) = painted gs ++ painted hs :=
  List.flatMap_append

theorem map_fst_painted (gs : List Segment) : (painted gs).map (·.1) = chars gs := by
  induction gs with
  | nil => rfl
  | cons g gs ih => simp [ih, Function.comp_def]

theorem painted_of_role {role : Role} {gs : List Segment} (h : ∀ g ∈ gs, g.role = role) :
    painted gs = (chars gs).map (·, role) := by
  induction gs with
  | nil => rfl
  | cons g gs ih =>
      obtain ⟨hg, hgs⟩ := List.forall_mem_cons.mp h
      rw [painted_cons, chars_cons, List.map_append, ih hgs, hg]

theorem of_mem_part {role : Role} {cs : List Char} {g : Segment} (h : g ∈ part role cs) :
    g.role = role ∧ g.highlighted = false ∧ g.text ≠ "" := by
  cases cs with
  | nil => cases h
  | cons c cs =>
      obtain rfl := List.mem_singleton.mp h
      exact ⟨rfl, rfl, by simp⟩

end Segment

open Segment

section Highlight

variable {text term : String} {role : Role}

/-- A text that a term does not occur in is one segment, and any other is cut at the first
occurrence. -/
theorem highlight_cases (text : String) (role : Role) (term : String) :
    ((term ≠ "" → ¬ term.toList <:+: text.toList) ∧ highlight text role term = [{ text, role }]) ∨
      ∃ before after, term ≠ "" ∧
        Text.splitAtFirst? term.toList text.toList = some (before, after) ∧
        highlight text role term =
          part role before ++ { text := term, role, highlighted := true } :: part role after := by
  by_cases hterm : term = ""
  · exact .inl ⟨fun h => absurd hterm h, by simp [highlight, hterm]⟩
  have hempty : term.isEmpty = false := by simpa using hterm
  cases hsplit : Text.splitAtFirst? term.toList text.toList with
  | none =>
      refine .inl ⟨fun _ hoccurs => ?_, by simp [highlight, hempty, hsplit]⟩
      have hsome := (Text.isSome_splitAtFirst?_iff _ _).mpr hoccurs
      rw [hsplit] at hsome
      contradiction
  | some found =>
      exact .inr ⟨found.1, found.2, hterm, rfl, by simp [highlight, hempty, hsplit]⟩

/-- Highlighting changes no character. -/
@[simp] theorem Segment.chars_highlight (text : String) (role : Role) (term : String) :
    chars (highlight text role term) = text.toList := by
  obtain ⟨-, heq⟩ | ⟨before, after, -, hsplit, heq⟩ := highlight_cases text role term
  · simp [heq]
  · simp [heq, Text.eq_of_splitAtFirst? hsplit]

theorem role_of_mem_highlight {g : Segment} (h : g ∈ highlight text role term) : g.role = role := by
  obtain ⟨-, heq⟩ | ⟨before, after, -, -, heq⟩ := highlight_cases text role term
  · rw [heq, List.mem_singleton] at h
    rw [h]
  · rw [heq, List.mem_append, List.mem_cons] at h
    rcases h with h | rfl | h
    · exact (of_mem_part h).1
    · rfl
    · exact (of_mem_part h).1

/-- To highlight a part of a text changes no character and no role. -/
theorem painted_highlight (text : String) (role : Role) (term : String) :
    painted (highlight text role term) = text.toList.map (·, role) := by
  rw [painted_of_role fun _ => role_of_mem_highlight, chars_highlight]

theorem text_ne_of_mem_highlight (htext : text ≠ "") {g : Segment}
    (h : g ∈ highlight text role term) : g.text ≠ "" := by
  obtain ⟨-, heq⟩ | ⟨before, after, hterm, -, heq⟩ := highlight_cases text role term
  · rw [heq, List.mem_singleton] at h
    rwa [h]
  · rw [heq, List.mem_append, List.mem_cons] at h
    rcases h with h | rfl | h
    · exact (of_mem_part h).2.2
    · exact hterm
    · exact (of_mem_part h).2.2

/-- Nothing is highlighted in a text without the term. -/
theorem occurs_of_highlighted {g : Segment} (hg : g ∈ highlight text role term)
    (h : g.highlighted = true) : term.toList <:+: text.toList := by
  obtain ⟨-, heq⟩ | ⟨before, after, -, hsplit, -⟩ := highlight_cases text role term
  · rw [heq, List.mem_singleton] at hg
    rw [hg] at h
    contradiction
  · exact ⟨before, after, by rw [Text.eq_of_splitAtFirst? hsplit, List.append_assoc]⟩

/-- The one highlighted segment. -/
theorem exists_highlighted (role : Role) (hterm : term ≠ "")
    (h : term.toList <:+: text.toList) :
    ∃ before after,
      highlight text role term =
        before ++ { text := term, role, highlighted := true } :: after ∧
      (∀ g ∈ before ++ after, g.highlighted = false) ∧
      Text.FirstAt term.toList text.toList (chars before).length := by
  obtain ⟨hnone, -⟩ | ⟨before, after, -, hsplit, heq⟩ := highlight_cases text role term
  · exact absurd h (hnone hterm)
  · refine ⟨part role before, part role after, heq, ?_, ?_⟩
    · intro g hg
      rcases List.mem_append.mp hg with hg | hg
      · exact (of_mem_part hg).2.1
      · exact (of_mem_part hg).2.1
    · rw [chars_part]
      exact Text.firstAt_of_splitAtFirst? hsplit

end Highlight

namespace Header

variable {term other : String}

/-- Parentheses and commas do not depend on the term. -/
theorem painted_parenthesized_congr {α : Type} {as : List α} {f g : α → List Segment}
    (h : ∀ a, painted (f a) = painted (g a)) :
    painted (parenthesized (as.map f)) = painted (parenthesized (as.map g)) := by
  have hinside : painted ((as.map f).intersperse [mark ", "]).flatten =
      painted ((as.map g).intersperse [mark ", "]).flatten := by
    induction as with
    | nil => rfl
    | cons a as ih =>
        cases as with
        | nil => simpa using h a
        | cons b as =>
            simp only [List.map_cons, List.intersperse_cons_cons, List.flatten_cons,
              painted_append, h a] at ih ⊢
            rw [ih]
  cases as with
  | nil => rfl
  | cons a as =>
      simp only [List.map_cons] at hinside
      simp only [parenthesized, List.map_cons, List.isEmpty_cons, Bool.false_eq_true, if_false,
        painted_cons, painted_append, hinside]

theorem painted_variableDefinition (term other : String) (v : VariableDefinition) :
    painted (variableDefinition term v) = painted (variableDefinition other v) := by
  simp only [variableDefinition, List.cons_append, painted_cons, painted_append, painted_highlight]

theorem painted_argument (term other : String) (a : Argument) :
    painted (argument term a) = painted (argument other a) := by
  simp only [argument, painted_cons, painted_append, painted_highlight]

theorem painted_typeCondition (term other : String) (type : Option String) :
    painted (typeCondition term type) = painted (typeCondition other type) := by
  cases type with
  | none => rfl
  | some type => simp only [typeCondition, painted_append, painted_highlight]

theorem painted_title (h : Head) (isDefinition : Bool) (term other : String) :
    painted (title h isDefinition term) = painted (title h isDefinition other) := by
  unfold title
  split
  · cases h.name <;> simp only [painted_append, painted_cons, painted_highlight]
  · cases isDefinition <;>
      simp [painted_highlight, painted_typeCondition term other]
  · rw [painted_cons, painted_cons, painted_typeCondition]
  · cases h.aliasName <;> simp only [painted_append, painted_highlight]

end Header

/-- The term decides only which characters of a header are highlighted. -/
theorem Head.painted_header (h : Head) (isDefinition hasChildren isOpen : Bool)
    (term other : String) : painted (h.header isDefinition hasChildren isOpen term) =
      painted (h.header isDefinition hasChildren isOpen other) := by
  simp only [header, painted_append, Header.painted_title h isDefinition term other,
    Header.painted_parenthesized_congr (Header.painted_variableDefinition term other),
    Header.painted_parenthesized_congr (Header.painted_argument term other)]

/-- A search leaves the text of every header and the role of each character. In a text that the
term occurs in, one segment is highlighted, the term at its first place, and in any other text
none is. -/
theorem header_search :
    (∀ (n : Node) (isDefinition isOpen : Bool) (term : String),
      let found := n.root.header isDefinition n.hasChildren isOpen term
      let plain := n.root.header isDefinition n.hasChildren isOpen ""
      String.join (found.map (·.text)) = String.join (plain.map (·.text)) ∧
        painted found = painted plain) ∧
    ∀ (text : String) (role : Role) (term : String), term ≠ "" →
      let segments := highlight text role term
      String.join (segments.map (·.text)) = text ∧
        ((∃ g ∈ segments, g.highlighted = true) ↔ term.toList <:+: text.toList) ∧
        (term.toList <:+: text.toList → ∃ before after,
          segments = before ++ { text := term, role, highlighted := true } :: after ∧
            (∀ g ∈ before ++ after, g.highlighted = false) ∧
            Text.FirstAt term.toList text.toList (chars before).length) ∧
        (text ≠ "" → ∀ g ∈ segments, g.text ≠ "") := by
  constructor
  · intro n isDefinition isOpen term found plain
    have hpainted : painted found = painted plain := n.root.painted_header _ _ _ _ _
    refine ⟨String.toList_inj.mp ?_, hpainted⟩
    rw [toList_join_text, toList_join_text, ← map_fst_painted, hpainted, map_fst_painted]
  · intro text role term hterm segments
    have htext : String.join (segments.map (·.text)) = text := by
      rw [← String.toList_inj, toList_join_text]
      exact chars_highlight text role term
    refine ⟨htext, ⟨?_, fun h => ?_⟩, exists_highlighted role hterm,
      fun hne g hg => text_ne_of_mem_highlight hne hg⟩
    · rintro ⟨g, hg, hmarked⟩
      exact occurs_of_highlighted hg hmarked
    · obtain ⟨before, after, heq, -, -⟩ := exists_highlighted role hterm h
      exact ⟨_, heq ▸ List.mem_append_right before List.mem_cons_self, rfl⟩

theorem header_search_secondTime :
    "an".toList <:+: "banana".toList ∧ ∃ before after,
      highlight "banana" .name "an" =
          before ++ { text := "an", role := .name, highlighted := true } :: after ∧
        (∀ g ∈ before ++ after, g.highlighted = false ∧ g.text ≠ "") ∧
        Text.FirstAt "an".toList "banana".toList (chars before).length := by
  obtain ⟨-, hmark, hfound, hnone⟩ := header_search.2 "banana" .name "an" (by decide)
  have hin : "an".toList <:+: "banana".toList := ⟨['b'], ['a', 'n', 'a'], by decide⟩
  obtain ⟨before, after, heq, hplain, hfirst⟩ := hfound hin
  refine ⟨hin, before, after, heq, fun g hg => ⟨hplain g hg, hnone (by decide) g ?_⟩, hfirst⟩
  rw [heq, List.mem_append, List.mem_cons]
  rcases List.mem_append.mp hg with hg | hg
  · exact .inl hg
  · exact .inr (.inr hg)

end QueryOutline
