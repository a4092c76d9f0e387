import Mathlib.Logic.Function.Iterate
import QueryOutline.Proofs.Grammar.Heads

/-!
The course of reading. The rules of the grammar call each other and come back; here the same
reading is a walk from place to place, where each step reads one head, one brace of a
selection set, or one token that belongs to neither. So all selection sets of a document
can be spoken of, also the ones that leave nothing in its forest.
-/

namespace QueryOutline

/-- What is read next. A selection set at some depth is inside that many others. -/
inductive Stage where
  /-- A definition, or a token that begins none. -/
  | between
  /-- A selection set, if one is there. -/
  | before (depth : Nat)
  /-- A selection of a set, or its closing brace. -/
  | inside (depth : Nat)
  /-- A set that is not expanded, with the braces that are open besides its own. -/
  | collapsed (depth more : Nat)
  deriving DecidableEq, Repr

/-- What comes after a selection set: it is the last part of a selection of the set around it,
or of a definition. -/
def Stage.behind : Nat → Stage
  | 0 => between
  | depth + 1 => inside depth

structure Place where
  stage : Stage
  ahead : List Token
  deriving DecidableEq, Repr

namespace Place

open Rule

def start (ts : List Token) : Place := ⟨.between, ts⟩

/-- One step. Where nothing more can be read, the sets that are still being read end one after
another. -/
def next : Place → Place
  | ⟨.between, []⟩ => start []
  | ⟨.between, t :: ts⟩ =>
      if t = "\x7b" then ⟨.before 0, t :: ts⟩
      else match definitionHead? t with
        | some head => ⟨.before 0, (head.read ts).rest⟩
        | none => start ts
  | ⟨.before depth, []⟩ => ⟨.behind depth, []⟩
  | ⟨.before depth, t :: ts⟩ =>
      if t = "\x7b" then
        if depth < maxNestingDepth then ⟨.inside depth, ts⟩ else ⟨.collapsed depth 0, ts⟩
      else ⟨.behind depth, t :: ts⟩
  | ⟨.inside depth, []⟩ => ⟨.behind depth, []⟩
  | ⟨.inside depth, t :: ts⟩ =>
      if t = "\x7d" then ⟨.behind depth, ts⟩
      else
        let found := (selectionHead t).read ts
        ⟨if found.result.2 then .before (depth + 1) else .inside depth, found.rest⟩
  | ⟨.collapsed depth _, []⟩ => ⟨.behind depth, []⟩
  | ⟨.collapsed depth more, t :: ts⟩ =>
      if t = "\x7b" then ⟨.collapsed depth (more + 1), ts⟩
      else if t = "\x7d" then
        if more = 0 then ⟨.behind depth, ts⟩ else ⟨.collapsed depth (more - 1), ts⟩
      else ⟨.collapsed depth more, ts⟩

variable {p q r : Place} {depth : Nat} {ts : List Token}

def Comes (p q : Place) : Prop :=
  ∃ steps, next^[steps] p = q

theorem Comes.refl : p.Comes p :=
  ⟨0, rfl⟩

theorem Comes.step (h : p.next.Comes q) : p.Comes q := by
  obtain ⟨steps, rfl⟩ := h
  exact ⟨steps + 1, Function.iterate_succ_apply next steps p⟩

theorem Comes.trans (hpq : p.Comes q) (hqr : q.Comes r) : p.Comes r := by
  obtain ⟨steps, rfl⟩ := hpq
  obtain ⟨more, rfl⟩ := hqr
  exact ⟨more + steps, Function.iterate_add_apply next more steps p⟩

/-! The walk comes to where the rules come back. -/

/-- The walk counts its way out of a collapsed set. -/
theorem comes_afterBlock (depth more : Nat) (ts : List Token) :
    Comes ⟨.collapsed depth more, ts⟩ ⟨.behind depth, afterBlock (more + 1) ts⟩ := by
  induction ts generalizing more with
  | nil => exact .step .refl
  | cons t ts ih =>
      refine .step ?_
      rw [next, afterBlock]
      split
      · simpa using ih (more + 1)
      · split
        · cases more with
          | zero => exact .refl
          | succ more =>
              have hdepth : ((more + 1 : Nat) : Int) + 1 ≠ 1 := by omega
              rw [if_neg hdepth, if_neg (Nat.succ_ne_zero more)]
              simpa using ih more
        · exact ih more

section Selections

variable {selections : Rule (Forest Head)}

/-- A selection leads from inside a set back to the inside of the same set. -/
theorem comes_selection
    (h : ∀ ts, Comes ⟨.before (depth + 1), ts⟩
      ⟨.inside depth, ((selectionSet selections).read ts).rest⟩)
    {t : Token} (ht : t ≠ "\x7d") (ts : List Token) :
    Comes ⟨.inside depth, t :: ts⟩
      ⟨.inside depth, ((selection selections t).read ts).rest⟩ := by
  refine .step ?_
  rw [next, if_neg ht, selection_eq, rest_withBelow]
  dsimp only
  split
  · exact h _
  · exact .refl

/-- The selections of a set lead behind it, closed or not. -/
theorem comes_manySelections
    (h : ∀ ts, Comes ⟨.before (depth + 1), ts⟩
      ⟨.inside depth, ((selectionSet selections).read ts).rest⟩) (ts : List Token) :
    Comes ⟨.inside depth, ts⟩
      ⟨.behind depth,
        (readUntil "\x7d" (fun first => some <$> selection selections first) ts).rest⟩ := by
  fun_induction readUntil "\x7d" (fun first => some <$> selection selections first) ts with
  | case1 => exact .step .refl
  | case2 ts =>
      refine .step ?_
      rw [next, if_pos rfl]
      exact .refl
  -- behind a selection the walk is in the same set, as the loop is
  | case3 t ts ht found others ih => exact (comes_selection h ht ts).trans ih

theorem comes_selectionSet
    (h : ∀ ts, Comes ⟨.before depth, "\x7b" :: ts⟩ ⟨.behind depth, (selections.read ts).rest⟩)
    (ts : List Token) :
    Comes ⟨.before depth, ts⟩ ⟨.behind depth, ((selectionSet selections).read ts).rest⟩ := by
  rw [selectionSet, read_bind]
  by_cases hts : ts.head? = some "\x7b"
  · obtain ⟨ts, rfl⟩ := List.head?_eq_some_iff.mp hts
    rw [read_skip_cons_self]
    exact h ts
  · rw [read_skip_of_ne hts]
    refine .step ?_
    cases ts with
    | nil => exact .refl
    | cons t ts =>
        rw [next, if_neg (by simpa using hts)]
        exact .refl

end Selections

/-- With the levels that are left below a depth, the walk and the rule for the selections
behind an opening brace end alike. -/
theorem comes_selections (levels : Nat) (h : depth + levels = maxNestingDepth)
    (ts : List Token) :
    Comes ⟨.before depth, "\x7b" :: ts⟩ ⟨.behind depth, ((selections levels).read ts).rest⟩ := by
  induction levels generalizing depth ts with
  -- at the limit the set is collapsed
  | zero =>
      refine .step ?_
      rw [next, if_pos rfl, if_neg (by omega)]
      exact comes_afterBlock depth 0 ts
  | succ levels ih =>
      refine .step ?_
      rw [next, if_pos rfl, if_pos (by omega)]
      exact comes_manySelections (comes_selectionSet (ih (by omega))) ts

/-- A definition leads from one place between definitions to the next. -/
theorem comes_definition {t : Token} {rule : Rule Node} (h : definition? t = some rule)
    (ts : List Token) : (start (t :: ts)).Comes (start (rule.read ts).rest) := by
  have hselections (ts : List Token) : Comes ⟨.before 0, "\x7b" :: ts⟩
      (start ((selections maxNestingDepth).read ts).rest) :=
    comes_selections maxNestingDepth (Nat.zero_add _) ts
  refine .step ?_
  by_cases ht : t = "\x7b"
  -- the rule begins behind the brace, and the walk in front of it
  · subst ht
    obtain rfl : bareQuery = rule := Option.some.inj h
    exact hselections ts
  · rw [definition?_of_ne ht, Option.map_eq_some_iff] at h
    obtain ⟨head, hhead, rfl⟩ := h
    rw [start, next, if_neg ht, hhead, definitionOf, rest_withBelow]
    exact comes_selectionSet hselections _

theorem comes_skipped {t : Token} (h : definition? t = none) (ts : List Token) :
    (start (t :: ts)).Comes (start ts) := by
  have ht : t ≠ "\x7b" := by
    rintro rfl
    simp [definition?] at h
  rw [definition?_of_ne ht, Option.map_eq_none_iff] at h
  refine .step ?_
  rw [start, next, if_neg ht, h]
  exact .refl

/-- The walk goes through every document to its end. -/
theorem comes_end (ts : List Token) : (start ts).Comes (start []) := by
  fun_induction Definitions.readFrom 0 ts with
  | case1 => exact .refl
  | case2 position t ts h others ih => exact (comes_skipped h ts).trans ih
  | case3 position t ts rule h found others ih => exact (comes_definition h ts).trans ih

end Place

end QueryOutline
