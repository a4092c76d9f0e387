import Mathlib.Algebra.Ring.Parity
import Mathlib.Data.List.Induction
import QueryOutline.Outline.Toolbar

/-!
Runs of gestures. A gesture on all nodes moves its counter one past the larger of the two, and
no other gesture touches them, so the larger counter counts these gestures and a pair of
counters that was left behind never comes back. The last of them decides which nodes are open.
The search is apart from this: its term is what was written last, where clearing the box, and
hiding it while it is shown, write nothing into it.
-/

namespace QueryOutline

namespace Toolbar

def Gesture.onAll : Gesture → Bool
  | .expandAll | .collapseAll => true
  | .toggleSearch | .setTerm _ | .clearSearch => false

variable {t : Toolbar} {gs : List Gesture}

theorem applyAll_append (t : Toolbar) (gs more : List Gesture) :
    t.applyAll (gs ++ more) = (t.applyAll gs).applyAll more :=
  List.foldl_append

theorem applyAll_concat (t : Toolbar) (gs : List Gesture) (g : Gesture) :
    t.applyAll (gs ++ [g]) = (t.applyAll gs).apply g :=
  t.applyAll_append gs [g]

/-! The counters. -/

theorem counters_le_apply (t : Toolbar) (g : Gesture) :
    t.generation.expand ≤ (t.apply g).generation.expand ∧
      t.generation.collapse ≤ (t.apply g).generation.collapse := by
  cases g with
  | expandAll | collapseAll =>
      simp only [apply, Generation.top]
      omega
  | toggleSearch | setTerm _ | clearSearch => exact ⟨Nat.le_refl _, Nat.le_refl _⟩

theorem counters_le_applyAll (t : Toolbar) (gs : List Gesture) :
    t.generation.expand ≤ (t.applyAll gs).generation.expand ∧
      t.generation.collapse ≤ (t.applyAll gs).generation.collapse := by
  induction gs generalizing t with
  | nil => exact ⟨Nat.le_refl _, Nat.le_refl _⟩
  | cons g gs ih =>
      have hfirst := t.counters_le_apply g
      have hrest := ih (t.apply g)
      exact ⟨Nat.le_trans hfirst.1 hrest.1, Nat.le_trans hfirst.2 hrest.2⟩

theorem top_apply (t : Toolbar) (g : Gesture) :
    (t.apply g).generation.top = t.generation.top + if g.onAll then 1 else 0 := by
  cases g with
  | expandAll => exact t.top_apply_expandAll
  | collapseAll => exact t.top_apply_collapseAll
  | toggleSearch | setTerm _ | clearSearch => rfl

/-- The counters count the gestures on all blocks. -/
theorem top_applyAll (t : Toolbar) (gs : List Gesture) :
    (t.applyAll gs).generation.top = t.generation.top + gs.countP Gesture.onAll := by
  induction gs using List.reverseRecOn with
  | nil => rfl
  | append_singleton gs g ih =>
      rw [applyAll_concat, top_apply, ih, List.countP_append, List.countP_singleton,
        Nat.add_assoc]

theorem generation_applyAll_ne {others : List Gesture}
    (h : gs.countP Gesture.onAll ≠ others.countP Gesture.onAll) :
    (t.applyAll gs).generation ≠ (t.applyAll others).generation := by
  intro hsame
  have htop := congrArg Generation.top hsame
  rw [top_applyAll, top_applyAll] at htop
  omega

theorem defaultOpen_apply (t : Toolbar) (g : Gesture) :
    (t.apply g).defaultOpen = if g.onAll then g == .expandAll else t.defaultOpen := by
  cases g with
  | expandAll => exact t.defaultOpen_apply_expandAll
  | collapseAll => exact t.defaultOpen_apply_collapseAll
  | toggleSearch | setTerm _ | clearSearch => rfl

/-- The last gesture on all blocks decides what is open. -/
theorem defaultOpen_applyAll (t : Toolbar) (gs : List Gesture) :
    (t.applyAll gs).defaultOpen =
      match (gs.filter Gesture.onAll).getLast? with
      | none => t.defaultOpen
      | some g => g == .expandAll := by
  induction gs using List.reverseRecOn with
  | nil => rfl
  | append_singleton gs g ih =>
      rw [applyAll_concat, defaultOpen_apply, ih, List.filter_append]
      cases h : g.onAll <;> simp [h]

/-! The search. -/

/-- Toggling the search twice leaves it as it was. -/
theorem searchVisible_applyAll (t : Toolbar) (gs : List Gesture) :
    (t.applyAll gs).searchVisible =
      (t.searchVisible ^^ decide (Odd (gs.count .toggleSearch))) := by
  induction gs using List.reverseRecOn with
  | nil => simp [applyAll]
  | append_singleton gs g ih =>
      rw [applyAll_concat, List.count_append, List.count_singleton]
      cases g with
      | toggleSearch =>
          simp only [apply, ih, beq_self_eq_true, if_true, Nat.odd_add_one, decide_not]
          rw [Bool.xor_not]
      | expandAll | collapseAll | setTerm _ | clearSearch => exact ih

/-- The gesture at a place of a run empties the search box: it clears the box, or it hides it
while it is shown. -/
def EmptiesAt (t : Toolbar) (gs : List Gesture) (i : Nat) : Prop :=
  gs[i]? = some .clearSearch ∨
    gs[i]? = some .toggleSearch ∧ (t.applyAll (gs.take i)).searchVisible = true

def writtenTerm? (t : Toolbar) : Gesture → Option String
  | .setTerm term => some term
  | .clearSearch => some ""
  | .toggleSearch => if t.searchVisible then some "" else none
  | .expandAll | .collapseAll => none

theorem searchTerm_apply (t : Toolbar) (g : Gesture) :
    (t.apply g).searchTerm = (t.writtenTerm? g).getD t.searchTerm := by
  cases g with
  | toggleSearch =>
      simp only [apply, writtenTerm?]
      split <;> rfl
  | expandAll | collapseAll | setTerm _ | clearSearch => rfl

def writtenAt? (t : Toolbar) (gs : List Gesture) (i : Nat) : Option String :=
  gs[i]?.bind (t.applyAll (gs.take i)).writtenTerm?

/-- A term is written by setting it, and the empty one by emptying the search box. -/
theorem writtenAt?_eq_some_iff {i : Nat} {term : String} :
    t.writtenAt? gs i = some term ↔
      gs[i]? = some (.setTerm term) ∨ t.EmptiesAt gs i ∧ term = "" := by
  rw [writtenAt?, EmptiesAt]
  cases gs[i]? with
  | none => simp
  | some g =>
      cases g with
      | setTerm other => simp [writtenTerm?]
      | clearSearch => simp [writtenTerm?, @eq_comm _ "" term]
      | toggleSearch => simp [writtenTerm?, @eq_comm _ "" term]
      | expandAll | collapseAll => simp [writtenTerm?]

theorem lt_length_of_writtenAt? {i : Nat} {term : String} (h : t.writtenAt? gs i = some term) :
    i < gs.length := by
  obtain ⟨g, hg, -⟩ := Option.bind_eq_some_iff.mp h
  exact (List.getElem?_eq_some_iff.mp hg).1

theorem writtenAt?_concat_length (t : Toolbar) (gs : List Gesture) (g : Gesture) :
    t.writtenAt? (gs ++ [g]) gs.length = (t.applyAll gs).writtenTerm? g := by
  simp [writtenAt?]

theorem writtenAt?_concat_of_lt (g : Gesture) {i : Nat} (h : i < gs.length) :
    t.writtenAt? (gs ++ [g]) i = t.writtenAt? gs i := by
  rw [writtenAt?, writtenAt?, List.getElem?_append_left h,
    List.take_append_of_le_length (Nat.le_of_lt h)]

/-- A term that is written stays, unless another one is written later. -/
theorem searchTerm_applyAll_of_written {i : Nat} {term : String}
    (h : t.writtenAt? gs i = some term)
    (hlater : ∀ j, i < j → ∀ other, t.writtenAt? gs j = some other → other = term) :
    (t.applyAll gs).searchTerm = term := by
  induction gs using List.reverseRecOn with
  | nil => simp [writtenAt?] at h
  | append_singleton gs g ih =>
      rw [applyAll_concat, searchTerm_apply, ← writtenAt?_concat_length]
      have hi : i < gs.length + 1 := by simpa using lt_length_of_writtenAt? h
      -- the term was there before the last gesture, or that gesture wrote it
      rcases Nat.lt_or_eq_of_le (Nat.le_of_lt_succ hi) with hlt | rfl
      · have hbefore : (t.applyAll gs).searchTerm = term := by
          apply ih
          · rwa [writtenAt?_concat_of_lt g hlt] at h
          · intro j hj other hother
            apply hlater j hj
            rwa [writtenAt?_concat_of_lt g (lt_length_of_writtenAt? hother)]
        cases hlast : t.writtenAt? (gs ++ [g]) gs.length with
        | none => exact hbefore
        | some other => exact hlater gs.length hlt other hlast
      · rw [h, Option.getD_some]

/-- A term that nothing writes over stays. -/
theorem searchTerm_applyAll_of_none (h : ∀ i, t.writtenAt? gs i = none) :
    (t.applyAll gs).searchTerm = t.searchTerm := by
  induction gs using List.reverseRecOn with
  | nil => rfl
  | append_singleton gs g ih =>
      rw [applyAll_concat, searchTerm_apply, ← writtenAt?_concat_length, h, Option.getD_none]
      apply ih
      intro i
      cases hi : t.writtenAt? gs i with
      | none => rfl
      | some term => rw [← hi, ← writtenAt?_concat_of_lt g (lt_length_of_writtenAt? hi), h]

/-- What a run of gestures leaves of a toolbar. Neither counter goes back, the larger one counts
the gestures on all nodes, so that runs with different numbers of them never end with the same
counters, and the last of them decides which nodes are open. As long as the search box is
shown, its term is the one that was set last, or none if the box was emptied since, and the one
from before the run if nothing was written at all. -/
theorem applyAll_history (t : Toolbar) (gs : List Gesture) :
    let after := t.applyAll gs
    (∀ more, after.generation.expand ≤ (t.applyAll (gs ++ more)).generation.expand ∧
        after.generation.collapse ≤ (t.applyAll (gs ++ more)).generation.collapse) ∧
      (∀ g, (t.applyAll (gs ++ [g])).generation.top =
        after.generation.top + if g = .expandAll ∨ g = .collapseAll then 1 else 0) ∧
      (∀ others, gs.countP Gesture.onAll ≠ others.countP Gesture.onAll →
        after.generation ≠ (t.applyAll others).generation) ∧
      (after.defaultOpen =
        match (gs.filter Gesture.onAll).getLast? with
        | none => t.defaultOpen
        | some g => g == .expandAll) ∧
      after.searchVisible = (t.searchVisible ^^ decide (Odd (gs.count .toggleSearch))) ∧
      (after.searchVisible = false → after.effectiveTerm = "") ∧
      (after.searchVisible = true →
        (∀ i term, gs[i]? = some (.setTerm term) →
          (∀ j, i < j → (∀ other, gs[j]? ≠ some (.setTerm other)) ∧ ¬ t.EmptiesAt gs j) →
            after.effectiveTerm = term) ∧
        (∀ i, t.EmptiesAt gs i → (∀ j, i < j → ∀ other, gs[j]? ≠ some (.setTerm other)) →
          after.effectiveTerm = "") ∧
        ((∀ i, (∀ term, gs[i]? ≠ some (.setTerm term)) ∧ ¬ t.EmptiesAt gs i) →
          after.effectiveTerm = t.searchTerm)) := by
  intro after
  refine ⟨?_, ?_, fun _ => generation_applyAll_ne, t.defaultOpen_applyAll gs,
    t.searchVisible_applyAll gs, ?_, ?_⟩
  · intro more
    rw [applyAll_append]
    exact after.counters_le_applyAll more
  · intro g
    rw [applyAll_concat, top_apply]
    cases g <;> simp [Gesture.onAll, after]
  · intro hhidden
    rw [effectiveTerm, hhidden]
    rfl
  · intro hshown
    have hterm : after.effectiveTerm = after.searchTerm := if_pos hshown
    rw [hterm]
    refine ⟨?_, ?_, ?_⟩
    · intro i term hset hlater
      apply searchTerm_applyAll_of_written (writtenAt?_eq_some_iff.mpr (.inl hset))
      intro j hj other hother
      obtain ⟨hunset, hkept⟩ := hlater j hj
      rcases writtenAt?_eq_some_iff.mp hother with hset' | ⟨hempty, -⟩
      · exact absurd hset' (hunset other)
      · exact absurd hempty hkept
    · intro i hempty hlater
      apply searchTerm_applyAll_of_written (writtenAt?_eq_some_iff.mpr (.inr ⟨hempty, rfl⟩))
      intro j hj other hother
      rcases writtenAt?_eq_some_iff.mp hother with hset | ⟨-, hnone⟩
      · exact absurd hset (hlater j hj other)
      · exact hnone
    · intro hnever
      apply searchTerm_applyAll_of_none
      intro i
      cases hwritten : t.writtenAt? gs i with
      | none => rfl
      | some term =>
          rcases writtenAt?_eq_some_iff.mp hwritten with hset | ⟨hempty, -⟩
          · exact absurd hset ((hnever i).1 term)
          · exact absurd hempty (hnever i).2

/-- A term that was set behind a clearing of the box, one that went with the box when it was
hidden, and one that was never touched. -/
theorem applyAll_history_threeSearches :
    let t : Toolbar := { generation := ⟨5, 7⟩, searchTerm := "cat" }
    let setLast : List Gesture :=
      [.toggleSearch, .setTerm "dog", .clearSearch, .setTerm "owl", .collapseAll]
    let hidden : List Gesture := [.toggleSearch, .setTerm "dog", .toggleSearch, .toggleSearch]
    let untouched : List Gesture := [.expandAll, .toggleSearch]
    (t.applyAll setLast).effectiveTerm = "owl" ∧ (t.applyAll hidden).effectiveTerm = "" ∧
      (t.applyAll untouched).effectiveTerm = "cat" ∧ (t.applyAll []).effectiveTerm = "" ∧
      (t.applyAll setLast).generation ≠ (t.applyAll hidden).generation := by
  intro t setLast hidden untouched
  refine ⟨?_, ?_, ?_, ?_, ?_⟩
  · obtain ⟨-, -, -, -, -, -, hshown⟩ := applyAll_history t setLast
    refine (hshown (by decide)).1 3 "owl" rfl ?_
    intro j hj
    rcases Nat.lt_or_ge j 5 with hlt | hge
    · obtain rfl : j = 4 := by omega
      simp [setLast, EmptiesAt]
    · simp [EmptiesAt, List.getElem?_eq_none (show setLast.length ≤ j from hge)]
  · obtain ⟨-, -, -, -, -, -, hshown⟩ := applyAll_history t hidden
    refine (hshown (by decide)).2.1 2 (.inr ⟨rfl, by decide⟩) ?_
    intro j hj other
    rcases Nat.lt_or_ge j 4 with hlt | hge
    · obtain rfl : j = 3 := by omega
      simp [hidden]
    · simp [List.getElem?_eq_none (show hidden.length ≤ j from hge)]
  · obtain ⟨-, -, -, -, -, -, hshown⟩ := applyAll_history t untouched
    refine (hshown (by decide)).2.2 ?_
    intro i
    rcases Nat.lt_or_ge i 2 with hlt | hge
    · obtain rfl | rfl : i = 0 ∨ i = 1 := by omega
      · simp [untouched, EmptiesAt]
      · simp [untouched, EmptiesAt, applyAll, apply, t]
    · simp [EmptiesAt, List.getElem?_eq_none (show untouched.length ≤ i from hge)]
  · obtain ⟨-, -, -, -, -, hhidden, -⟩ := applyAll_history t []
    exact hhidden rfl
  · obtain ⟨-, -, hapart, -⟩ := applyAll_history t setLast
    exact hapart hidden (by decide)

end Toolbar

end QueryOutline
