import Mathlib.Data.List.Forall2
import Mathlib.Logic.ExistsUnique
import QueryOutline.Proofs.Grammar.Total

/-!
Every token of a document is accounted for once. The rules always end with an
answer and never move a cursor back, and a definition is found exactly where a
token is taken, which is where one of five tokens stands. So the definitions of a
document lie on disjoint stretches, and what is skipped is what lies in none of them.
-/

namespace QueryOutline

open Cursor

namespace OnCursor

variable {α : Type}

/-- The rules of the grammar, each with the rule on lists that it follows. Below
the selections at a depth there are the selection sets one level deeper. -/
inductive Grammar : {α : Type} → OnCursor α → Rule α → Prop where
  | definition : Grammar definition Rule.definition
  | fragmentDefinition : Grammar fragmentDefinition Rule.fragmentDefinition
  | variableDefinitions : Grammar variableDefinitions Rule.variableDefinitions
  | selectionSet (depth : Nat) :
      Grammar (selectionSet depth) (Rule.braced (maxNestingDepth - depth))
  | skipBlock : Grammar skipBlock Rule.wholeBlock
  | selection (depth : Nat) :
      Grammar (selection (selectionSet (depth + 1)))
        (Rule.selectionHere (Rule.selections (Rule.levelsBelow depth)))
  | spread (depth : Nat) (attached : String) :
      Grammar (spread (selectionSet (depth + 1)) attached)
        (Rule.spread (Rule.selections (Rule.levelsBelow depth)) attached)
  | field (depth : Nat) :
      Grammar (field (selectionSet (depth + 1)))
        (Rule.fieldHere (Rule.selections (Rule.levelsBelow depth)))
  | directives : Grammar directives Rule.directives
  | arguments : Grammar arguments Rule.arguments
  | value : Grammar value Rule.value

theorem Grammar.follows {m : OnCursor α} {r : Rule α} (h : Grammar m r) : Follows m r := by
  cases h with
  | definition => exact follows_definition
  | fragmentDefinition => exact follows_fragmentDefinition
  | variableDefinitions => exact follows_variableDefinitions
  | selectionSet depth => exact follows_selectionSet depth
  | skipBlock => exact follows_skipBlock
  | selection depth => exact follows_selection (follows_selectionSet (depth + 1))
  | spread depth attached => exact follows_spread (follows_selectionSet (depth + 1)) attached
  | field depth => exact follows_field (follows_selectionSet (depth + 1))
  | directives => exact follows_directives
  | arguments => exact follows_arguments
  | value => exact follows_value

/-- Inside the tokens the rule has an answer, which is that of the rule on lists,
and leaves a cursor over the same tokens that is not further back. -/
def Answers (m : OnCursor α) (r : Rule α) : Prop :=
  ∀ c : Cursor, c.position ≤ c.tokens.length → ∃ a c',
    m.run c = .ok (a, c') ∧ c.run r false = (a, c') ∧ c'.tokens = c.tokens ∧
      c.position ≤ c'.position ∧ c'.position ≤ c.tokens.length

theorem Follows.answers {m : OnCursor α} {r : Rule α} (h : Follows m r) : Answers m r := by
  intro c hc
  have hs := c.remaining_suffix
  have hl := r.length_rest_le c.remaining
  have hrun := h hs
  have hlist := run_ahead hs r false
  rw [ahead_remaining hc] at hrun hlist
  refine ⟨_, _, hrun, hlist, rfl, ?_, ?_⟩
  · rw [Cursor.remaining, List.length_drop] at hl
    change c.position ≤ c.tokens.length - (r.read c.remaining).rest.length
    rw [Cursor.remaining]
    omega
  · exact Nat.sub_le _ _

end OnCursor

/-! Where a definition begins. -/

namespace Rule

def starters : List Token :=
  ["\x7b", "query", "mutation", "subscription", "fragment"]

theorem isSome_ofText?_iff (t : Token) :
    (OperationType.ofText? t).isSome = true ↔
      t = "query" ∨ t = "mutation" ∨ t = "subscription" := by
  have heq (a b : String) : (a == b) = true ↔ b = a := by
    rw [beq_iff_eq, eq_comm]
  simp [OperationType.ofText?, OperationType.all, OperationType.text, heq, -beq_iff_eq]

theorem isSome_definition?_iff (t : Token) :
    (definition? t).isSome = true ↔ t ∈ starters := by
  rw [definition?, starters]
  by_cases hfragment : t = "fragment"
  · simp [hfragment]
  · by_cases hbrace : t = "\x7b"
    · simp [hbrace]
    · rw [if_neg hfragment, if_neg hbrace, Option.isSome_map, isSome_ofText?_iff]
      simp [hfragment, hbrace]

/-- A definition is found where a token is taken. -/
theorem isSome_read_definition_iff (ts : List Token) :
    (definition.read ts).result.isSome = true ↔ (definition.read ts).rest.length < ts.length := by
  cases ts with
  | nil => simp [definition]
  | cons t ts =>
      cases hd : definition? t with
      | none =>
          rw [read_definition_of_none hd]
          simp
      | some r =>
          have hr := r.length_rest_le ts
          rw [read_definition_of_some hd, List.length_cons]
          simp only [Option.isSome_some, true_iff]
          omega

theorem isSome_read_definition_iff_starter (ts : List Token) :
    (definition.read ts).result.isSome = true ↔ ∃ t ∈ starters, ts.head? = some t := by
  cases ts with
  | nil => simp [definition]
  | cons t ts =>
      have ht := isSome_definition?_iff t
      cases hd : definition? t with
      | none =>
          rw [hd] at ht
          rw [read_definition_of_none hd]
          simpa using ht
      | some r =>
          rw [hd] at ht
          rw [read_definition_of_some hd]
          simpa using ht

/-- A selection takes its first token. -/
theorem length_rest_selectionHere_lt (selections : Rule (Forest Head)) {ts : List Token}
    (h : ts ≠ []) : ((selectionHere selections).read ts).rest.length < ts.length := by
  cases ts with
  | nil => contradiction
  | cons t ts => exact Nat.lt_succ_of_le ((selection selections t).length_rest_le ts)

end Rule

namespace Cursor

variable {α : Type} {c : Cursor}

theorem position_run (hc : c.position ≤ c.tokens.length) (r : Rule α) :
    (c.run r false).2.position = c.tokens.length - (r.read c.remaining).rest.length := by
  simp [run, hc]

theorem length_remaining (c : Cursor) :
    c.remaining.length = c.tokens.length - c.position :=
  List.length_drop

/-- A cursor moves as far as tokens are taken. -/
theorem position_lt_position_run_iff (hc : c.position ≤ c.tokens.length) (r : Rule α) :
    c.position < (c.run r false).2.position ↔
      (r.read c.remaining).rest.length < c.remaining.length := by
  have hr := r.length_rest_le c.remaining
  rw [position_run hc]
  rw [length_remaining] at hr ⊢
  omega

theorem peek_eq_head?_remaining (c : Cursor) : c.peek = c.remaining.head? := by
  rw [remaining, List.head?_drop]
  simp [peek]

end Cursor

/-! What is skipped. -/

namespace Definitions

theorem le_of_mem_skipped (position : Nat) (ts : List Token) :
    ∀ i ∈ (readFrom position ts).skipped, position ≤ i := by
  fun_induction readFrom position ts with
  | case1 => simp
  | case2 position t ts _ others ih =>
      intro i hi
      rcases List.mem_cons.mp hi with rfl | hi
      · exact Nat.le_refl _
      · exact Nat.le_of_succ_le (ih i hi)
  | case3 position t ts r _ found others ih =>
      intro i hi
      have h := ih i hi
      omega

theorem pairwise_skipped (position : Nat) (ts : List Token) :
    (readFrom position ts).skipped.Pairwise (· < ·) := by
  fun_induction readFrom position ts with
  | case1 => exact List.Pairwise.nil
  | case2 position t ts _ others ih =>
      exact List.pairwise_cons.mpr ⟨le_of_mem_skipped (position + 1) ts, ih⟩
  | case3 position t ts r _ found others ih => exact ih

theorem not_starter_of_mem_skipped {tokens : List Token} (position : Nat) (ts : List Token) :
    ts <:+ tokens → position = tokens.length - ts.length →
      ∀ i ∈ (readFrom position ts).skipped, ∃ t, tokens[i]? = some t ∧ t ∉ Rule.starters := by
  fun_induction readFrom position ts with
  | case1 => simp
  | case2 position t ts hd others ih =>
      intro h hp i hi
      rcases List.mem_cons.mp hi with rfl | hi
      · refine ⟨t, ?_, ?_⟩
        · rw [hp]
          exact getElem?_ahead h 0
        · rw [← Rule.isSome_definition?_iff, hd]
          simp
      · exact ih ((List.suffix_cons t ts).trans h) (position_tail h hp) i hi
  | case3 position t ts r hd found others ih =>
      intro h hp i hi
      exact ih (rest_suffix_of_cons r h) (position_rest r h hp) i hi

end Definitions

/-! Stretches. -/

/-- Positions from the start on, up to the stop. -/
structure Stretch where
  start : Nat
  stop : Nat
  deriving DecidableEq, Repr

def Stretch.Covers (s : Stretch) (i : Nat) : Prop :=
  s.start ≤ i ∧ i < s.stop

/-- From a position on, the nodes are what the rule for a definition finds at the
starts of the stretches and up to their stops, and what is skipped lies in no stretch. -/
structure Accounts (tokens : List Token) (first : Nat) (nodes : List Node) (skipped : List Nat)
    (stretches : List Stretch) : Prop where
  definitions : List.Forall₂
    (fun n (s : Stretch) =>
      OnCursor.definition.run ⟨tokens, s.start⟩ = .ok (some n, ⟨tokens, s.stop⟩))
    nodes stretches
  inside : ∀ s ∈ stretches, first ≤ s.start ∧ s.start < s.stop ∧ s.stop ≤ tokens.length
  ordered : stretches.Pairwise fun s u => s.stop ≤ u.start
  mem_skipped : ∀ i, first ≤ i →
    (i ∈ skipped ↔ i < tokens.length ∧ ∀ s ∈ stretches, ¬ s.Covers i)

namespace Accounts

variable {tokens : List Token} {first : Nat} {n : Node} {nodes : List Node} {skipped : List Nat}
  {s : Stretch} {stretches others : List Stretch}

theorem nil : Accounts tokens tokens.length [] [] [] where
  definitions := .nil
  inside := by simp
  ordered := .nil
  mem_skipped := by
    intro i hi
    simp only [List.not_mem_nil, false_iff]
    omega

theorem skip (h : Accounts tokens (first + 1) nodes skipped stretches)
    (hfirst : first < tokens.length) :
    Accounts tokens first nodes (first :: skipped) stretches where
  definitions := h.definitions
  inside := by
    intro s hs
    obtain ⟨h₁, h₂⟩ := h.inside s hs
    exact ⟨Nat.le_of_succ_le h₁, h₂⟩
  ordered := h.ordered
  mem_skipped := by
    intro i hi
    by_cases heq : i = first
    -- the position itself lies in no stretch, for all of them start behind it
    · subst heq
      simp only [List.mem_cons_self, hfirst, true_and, true_iff]
      intro s hs hcovers
      have hstart := (h.inside s hs).1
      have hle := hcovers.1
      omega
    · rw [List.mem_cons, h.mem_skipped i (by omega)]
      simp [heq]

theorem cons (h : Accounts tokens s.stop nodes skipped stretches)
    (hrun : OnCursor.definition.run ⟨tokens, s.start⟩ = .ok (some n, ⟨tokens, s.stop⟩))
    (hlt : s.start < s.stop) (hstop : s.stop ≤ tokens.length)
    (hskipped : ∀ i ∈ skipped, s.stop ≤ i) :
    Accounts tokens s.start (n :: nodes) skipped (s :: stretches) where
  definitions := .cons hrun h.definitions
  inside := by
    intro u hu
    rcases List.mem_cons.mp hu with rfl | hu
    · exact ⟨Nat.le_refl _, hlt, hstop⟩
    · obtain ⟨h₁, h₂⟩ := h.inside u hu
      exact ⟨by omega, h₂⟩
  ordered := List.pairwise_cons.mpr ⟨fun u hu => (h.inside u hu).1, h.ordered⟩
  mem_skipped := by
    intro i hi
    rw [List.forall_mem_cons]
    by_cases hbelow : i < s.stop
    · have hcovers : s.Covers i := ⟨hi, hbelow⟩
      have hnot : i ∉ skipped := fun hmem => Nat.not_lt.mpr (hskipped i hmem) hbelow
      simp [hcovers, hnot]
    · have hcovers : ¬ s.Covers i := fun hc => hbelow hc.2
      rw [h.mem_skipped i (Nat.not_lt.mp hbelow)]
      simp [hcovers]

theorem tail (h : Accounts tokens first (n :: nodes) skipped (s :: stretches)) :
    Accounts tokens s.stop nodes skipped stretches where
  definitions := (List.forall₂_cons.mp h.definitions).2
  inside := by
    intro u hu
    have hbehind := (List.pairwise_cons.mp h.ordered).1 u hu
    exact ⟨hbehind, (h.inside u (List.mem_cons_of_mem s hu)).2⟩
  ordered := (List.pairwise_cons.mp h.ordered).2
  mem_skipped := by
    intro i hi
    have hs := h.inside s List.mem_cons_self
    have hcovers : ¬ s.Covers i := fun hc => Nat.not_lt.mpr hi hc.2
    rw [h.mem_skipped i (by omega), List.forall_mem_cons]
    simp [hcovers]

/-- The first stretch starts at the first position that is not skipped. -/
theorem exists_start_le (h : Accounts tokens first nodes skipped (s :: stretches))
    (hothers : Accounts tokens first nodes skipped others) : ∃ u ∈ others, u.start ≤ s.start := by
  obtain ⟨hfirst, hlt, hstop⟩ := h.inside s List.mem_cons_self
  have hmem : s.start ∉ skipped := by
    intro hmem
    have hnone := ((h.mem_skipped s.start hfirst).mp hmem).2
    exact hnone s List.mem_cons_self ⟨Nat.le_refl _, hlt⟩
  rw [hothers.mem_skipped s.start hfirst] at hmem
  by_contra hnone
  refine hmem ⟨by omega, ?_⟩
  intro u hu hcovers
  exact hnone ⟨u, hu, hcovers.1⟩

theorem start_le_start {u : Stretch} (h : Accounts tokens first nodes skipped (s :: stretches))
    (hothers : Accounts tokens first nodes skipped (u :: others)) : u.start ≤ s.start := by
  obtain ⟨v, hv, hle⟩ := exists_start_le h hothers
  rcases List.mem_cons.mp hv with rfl | hv
  · exact hle
  · have hbehind := (List.pairwise_cons.mp hothers.ordered).1 v hv
    have hlt := (hothers.inside u List.mem_cons_self).2.1
    omega

/-- What is found and what is skipped determine the stretches. -/
theorem unique (h : Accounts tokens first nodes skipped stretches)
    (hothers : Accounts tokens first nodes skipped others) : others = stretches := by
  induction nodes generalizing first stretches others with
  | nil =>
      have h₁ := List.forall₂_nil_left_iff.mp h.definitions
      have h₂ := List.forall₂_nil_left_iff.mp hothers.definitions
      rw [h₁, h₂]
  | cons n nodes ih =>
      obtain ⟨s, stretches, hrun, -, rfl⟩ := List.forall₂_cons_left_iff.mp h.definitions
      obtain ⟨u, others, hrun', -, rfl⟩ := List.forall₂_cons_left_iff.mp hothers.definitions
      -- each list covers the start of the other's first stretch, so neither starts later
      have hstart : u.start = s.start :=
        Nat.le_antisymm (start_le_start h hothers) (start_le_start hothers h)
      have hstop : u.stop = s.stop := by
        rw [hstart, hrun] at hrun'
        have hcursor := (Prod.mk.inj (Except.ok.inj hrun')).2
        exact (Cursor.mk.inj hcursor).2.symm
      have heq : u = s := by
        cases u
        cases s
        simp_all
      subst heq
      rw [ih h.tail hothers.tail]

end Accounts

namespace Definitions

theorem exists_accounts {tokens : List Token} (position : Nat) (ts : List Token) :
    ts <:+ tokens → position = tokens.length - ts.length → ∃ stretches,
      Accounts tokens position (readFrom position ts).forest.toList
        (readFrom position ts).skipped stretches := by
  fun_induction readFrom position ts with
  | case1 position =>
      intro h hp
      rw [List.length_nil, Nat.sub_zero] at hp
      subst hp
      exact ⟨[], Accounts.nil⟩
  | case2 position t ts hd others ih =>
      intro h hp
      have hl := h.length_le
      rw [List.length_cons] at hl
      obtain ⟨stretches, haccounts⟩ := ih ((List.suffix_cons t ts).trans h) (position_tail h hp)
      refine ⟨stretches, haccounts.skip ?_⟩
      rw [hp, List.length_cons]
      omega
  | case3 position t ts r hd found others ih =>
      intro h hp
      have hstop := position_rest r h hp
      have hrun := OnCursor.follows_definition h
      rw [Rule.read_definition_of_some hd, ahead, ahead, ← hp, ← hstop] at hrun
      obtain ⟨stretches, haccounts⟩ := ih (rest_suffix_of_cons r h) hstop
      let s : Stretch := ⟨position, position + 1 + (ts.length - found.rest.length)⟩
      have hlt : s.start < s.stop := Nat.lt_of_lt_of_le (Nat.lt_succ_self _) (Nat.le_add_right _ _)
      have hle : s.stop ≤ tokens.length := Nat.le_trans (Nat.le_of_eq hstop) (Nat.sub_le _ _)
      refine ⟨s :: stretches, ?_⟩
      exact Accounts.cons (s := s) (n := (r.read ts).result) haccounts hrun hlt hle
        (le_of_mem_skipped _ _)

end Definitions

/-- Every rule answers inside the tokens, a definition is found where one of the
starters stands and nowhere else, and the definitions of a document and the skipped
positions share out its tokens in one way. -/
theorem grammar_accounts_for_tokens :
    (∀ {α : Type} {m : OnCursor α} {r : Rule α}, OnCursor.Grammar m r → OnCursor.Answers m r) ∧
      (∀ (c : Cursor) (depth : Nat), c.position < c.tokens.length → c.position <
        (c.run (Rule.selectionHere (Rule.selections (Rule.levelsBelow depth))) false).2.position) ∧
      (∀ c : Cursor, c.position ≤ c.tokens.length →
        ((c.run Rule.definition false).1.isSome = true ↔
          c.position < (c.run Rule.definition false).2.position) ∧
        ((c.run Rule.definition false).1.isSome = true ↔
          ∃ t ∈ Rule.starters, c.peek = some t)) ∧
      ∀ ts : List Token,
        OnCursor.definitions.run ⟨ts, 0⟩ = .ok (parseDefinitions ts, ⟨ts, ts.length⟩) ∧
        (∃! stretches, Accounts ts 0 (parseDefinitions ts).forest.toList
          (parseDefinitions ts).skipped stretches) ∧
        (parseDefinitions ts).skipped.Pairwise (· < ·) ∧
        ∀ i ∈ (parseDefinitions ts).skipped, ∃ t, ts[i]? = some t ∧ t ∉ Rule.starters := by
  refine ⟨fun h => h.follows.answers, ?_, ?_, ?_⟩
  · intro c depth hc
    rw [position_lt_position_run_iff (Nat.le_of_lt hc)]
    apply Rule.length_rest_selectionHere_lt
    rw [← List.length_pos_iff, length_remaining]
    omega
  · intro c hc
    rw [position_lt_position_run_iff hc, peek_eq_head?_remaining]
    exact ⟨Rule.isSome_read_definition_iff _, Rule.isSome_read_definition_iff_starter _⟩
  · intro ts
    have hs := List.suffix_refl ts
    have hp : 0 = ts.length - ts.length := (Nat.sub_self _).symm
    obtain ⟨stretches, haccounts⟩ := Definitions.exists_accounts 0 ts hs hp
    refine ⟨OnCursor.run_definitions ts, ⟨stretches, haccounts, ?_⟩, ?_, ?_⟩
    · intro others hothers
      exact haccounts.unique hothers
    · exact Definitions.pairwise_skipped 0 ts
    · exact Definitions.not_starter_of_mem_skipped 0 ts hs hp

/-- An inline fragment, where a selection moves on and no definition is found. -/
theorem grammar_accounts_for_tokens_spread :
    let c : Cursor := ⟨["\x7b", "...", "on", "Pet", "\x7b", "id", "\x7d", "\x7d"], 1⟩
    let selection := Rule.selectionHere (Rule.selections (Rule.levelsBelow 1))
    c.position < (c.run selection false).2.position ∧
      (c.run Rule.definition false).1.isSome = false := by
  intro c selection
  obtain ⟨-, hmoves, hstarts, -⟩ := grammar_accounts_for_tokens
  obtain ⟨-, hstarter⟩ := hstarts c (by decide)
  refine ⟨hmoves c 1 (by decide), ?_⟩
  rw [← Bool.not_eq_true, hstarter]
  decide +kernel

end QueryOutline
