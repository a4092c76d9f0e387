import Mathlib.Data.List.Induction
import QueryOutline.Diagnostic
import QueryOutline.Proofs.Grammar.Course

/-!
Braces. The diagnostics count braces over all tokens of a document, but to the grammar not
every brace belongs to a selection set: one can be taken for a name or be a part of an
argument, and one between definitions is skipped. Along the walk through a document the
braces that are read in such places are what the two counts differ by.
-/

namespace QueryOutline

def braceWeight (t : Token) : Int :=
  if t = "\x7b" then 1 else if t = "\x7d" then -1 else 0

/-- The opening braces less the closing ones. -/
def braces : List Token → Int
  | [] => 0
  | t :: ts => braceWeight t + braces ts

@[simp] theorem braces_nil : braces [] = 0 := rfl

@[simp] theorem braces_cons (t : Token) (ts : List Token) :
    braces (t :: ts) = braceWeight t + braces ts := rfl

@[simp] theorem braces_append (ts us : List Token) : braces (ts ++ us) = braces ts + braces us := by
  induction ts with
  | nil => simp
  | cons t ts ih => simp [ih, Int.add_assoc]

@[simp] theorem braceWeight_opening : braceWeight "\x7b" = 1 := rfl

@[simp] theorem braceWeight_closing : braceWeight "\x7d" = -1 := rfl

theorem braceWeight_of_ne {t : Token} (ho : t ≠ "\x7b") (hc : t ≠ "\x7d") : braceWeight t = 0 := by
  simp [braceWeight, ho, hc]

namespace BraceCount

theorem balance_step (b : BraceCount) (t : Token) :
    (b.step t).balance = b.balance + braceWeight t := by
  unfold step braceWeight
  split
  · rfl
  · split
    · rfl
    · simp

theorem deepest_le_step (b : BraceCount) (t : Token) : b.deepest ≤ (b.step t).deepest := by
  unfold step
  split
  · exact Int.le_max_left _ _
  · split <;> exact Int.le_refl _

theorem balance_foldl (b : BraceCount) (ts : List Token) :
    (ts.foldl step b).balance = b.balance + braces ts := by
  induction ts generalizing b with
  | nil => simp
  | cons t ts ih => rw [List.foldl_cons, ih, balance_step, braces_cons, Int.add_assoc]

theorem deepest_le_foldl (b : BraceCount) (ts : List Token) :
    b.deepest ≤ (ts.foldl step b).deepest := by
  induction ts generalizing b with
  | nil => exact Int.le_refl _
  | cons t ts ih => exact Int.le_trans (deepest_le_step b t) (ih _)

/-- The balance of the diagnostics is the sum over all tokens. -/
theorem balance_ofTokens (ts : List Token) : (ofTokens ts).balance = braces ts := by
  rw [ofTokens, balance_foldl]
  exact Int.zero_add _

theorem balance_lt_deepest_step (b : BraceCount) : b.balance < (b.step "\x7b").deepest :=
  Int.lt_of_lt_of_le (Int.lt_succ _) (Int.le_max_right _ _)

/-- Only an opening brace leads to a new depth. -/
theorem lt_deepest_of_step {bound : Int} {b : BraceCount} {t : Token}
    (h : bound < (b.step t).deepest) :
    bound < b.deepest ∨ t = "\x7b" ∧ bound ≤ b.balance := by
  unfold step at h
  split at h
  · next ht =>
      by_cases hb : bound < b.deepest
      · exact .inl hb
      · dsimp only at h
        exact .inr ⟨ht, by omega⟩
  · split at h <;> exact .inl h

/-- The count goes as far up as it is behind an opening brace. -/
theorem lt_deepest_ofTokens_iff {bound : Nat} {ts : List Token} :
    bound < (ofTokens ts).deepest ↔
      ∃ read us, ts = read ++ "\x7b" :: us ∧ bound ≤ braces read := by
  constructor
  · intro h
    induction ts using List.reverseRecOn with
    | nil => exact absurd h (by simp [ofTokens])
    | append_singleton ts t ih =>
        rw [ofTokens, List.foldl_append] at h
        rcases lt_deepest_of_step h with h | ⟨rfl, h⟩
        · obtain ⟨read, us, rfl, hbound⟩ := ih h
          exact ⟨read, us ++ [t], by simp, hbound⟩
        · exact ⟨ts, [], rfl, by rwa [← balance_ofTokens]⟩
  · rintro ⟨read, us, rfl, hbound⟩
    rw [ofTokens, List.foldl_append, List.foldl_cons]
    calc (bound : Int) ≤ (read.foldl step {}).balance := by rwa [← balance_ofTokens] at hbound
      _ < ((read.foldl step {}).step "\x7b").deepest := balance_lt_deepest_step _
      _ ≤ (us.foldl step ((read.foldl step {}).step "\x7b")).deepest := deepest_le_foldl _ us

end BraceCount

/-! What is read elsewhere than by selection sets. -/

namespace Place

open Rule

def taken (p : Place) : List Token :=
  p.ahead.take (p.ahead.length - p.next.ahead.length)

theorem ahead_next_suffix (p : Place) : p.next.ahead <:+ p.ahead := by
  have hcons {t : Token} {us ts : List Token} (h : us <:+ ts) : us <:+ t :: ts :=
    h.trans (List.suffix_cons t ts)
  obtain ⟨stage, _ | ⟨t, ts⟩⟩ := p
  · cases stage <;> exact List.suffix_refl []
  · cases stage with
    | between =>
        rw [next]
        split
        · exact List.suffix_refl _
        · split
          · exact hcons (Rule.rest_suffix _ ts)
          · exact hcons (List.suffix_refl ts)
    | before depth =>
        rw [next]
        repeat' split
        · exact hcons (List.suffix_refl ts)
        · exact hcons (List.suffix_refl ts)
        · exact List.suffix_refl _
    | inside depth =>
        rw [next]
        split
        · exact hcons (List.suffix_refl ts)
        · exact hcons (Rule.rest_suffix _ ts)
    | collapsed depth more =>
        rw [next]
        repeat' split
        all_goals exact hcons (List.suffix_refl ts)

/-- A step takes tokens from the front of those ahead. -/
theorem taken_append (p : Place) : p.taken ++ p.next.ahead = p.ahead := by
  conv_rhs => rw [← List.take_append_drop (p.ahead.length - p.next.ahead.length) p.ahead]
  rw [taken, ← List.suffix_iff_eq_drop.mp p.ahead_next_suffix]

theorem braces_ahead (p : Place) : braces p.ahead = braces p.taken + braces p.next.ahead := by
  rw [← braces_append, taken_append]

/-- The tokens of heads, and those that belong to no definition. All other steps read braces of
selection sets, or what a collapsed set has inside. -/
def strays (p : Place) : List Token :=
  match p with
  | ⟨.between, _⟩ => p.taken
  | ⟨.inside _, t :: _⟩ => if t = "\x7d" then [] else p.taken
  | _ => []

/-- A selection set runs out of tokens in front of its closing brace. -/
def RunsOut : Place → Prop
  | ⟨.inside _, []⟩ | ⟨.collapsed _ _, []⟩ => True
  | _ => False

/-- The braces that are left open where a selection set runs out of tokens. -/
def lost : Place → Nat
  | ⟨.inside _, []⟩ => 1
  | ⟨.collapsed _ more, []⟩ => more + 1
  | _ => 0

/-- A selection set that runs out of tokens loses at least its own brace. -/
theorem runsOut_iff (p : Place) : p.RunsOut ↔ p.lost ≠ 0 := by
  obtain ⟨stage, _ | ⟨t, ts⟩⟩ := p
  all_goals cases stage <;> simp [RunsOut, lost]

instance : DecidablePred RunsOut := fun p =>
  decidable_of_iff _ p.runsOut_iff.symm

end Place

def Stage.openBraces : Stage → Nat
  | between => 0
  | before depth => depth
  | inside depth => depth + 1
  | collapsed depth more => depth + 1 + more

namespace Place

/-- The braces that are open at a place, together with those in front of it. -/
def weight (p : Place) : Int :=
  p.stage.openBraces + braces p.ahead

@[simp] theorem weight_between (ts : List Token) : weight ⟨.between, ts⟩ = braces ts :=
  Int.zero_add _

@[simp] theorem weight_start (ts : List Token) : (start ts).weight = braces ts :=
  weight_between ts

@[simp] theorem weight_before (depth : Nat) (ts : List Token) :
    weight ⟨.before depth, ts⟩ = depth + braces ts := rfl

@[simp] theorem weight_inside (depth : Nat) (ts : List Token) :
    weight ⟨.inside depth, ts⟩ = depth + 1 + braces ts := rfl

@[simp] theorem weight_collapsed (depth more : Nat) (ts : List Token) :
    weight ⟨.collapsed depth more, ts⟩ = depth + 1 + more + braces ts := rfl

@[simp] theorem weight_behind (depth : Nat) (ts : List Token) :
    weight ⟨.behind depth, ts⟩ = depth + braces ts := by
  cases depth <;> simp [Stage.behind]

/-! How a step changes this sum. A brace of a selection set moves from one summand to the
other, so that only heads and skipped tokens take something away, and sets that run out. -/

theorem weight_step_between (ts : List Token) :
    weight ⟨.between, ts⟩ = braces (taken ⟨.between, ts⟩) + weight (next ⟨.between, ts⟩) := by
  have hnext : weight (next ⟨.between, ts⟩) = braces (next ⟨.between, ts⟩).ahead := by
    cases ts with
    | nil => rfl
    | cons t ts =>
        have hhead (ts : List Token) : weight ⟨.before 0, ts⟩ = braces ts := Int.zero_add _
        rw [next]
        split
        · exact hhead _
        · split
          · exact hhead _
          · exact weight_start ts
  rw [hnext, weight_between]
  exact braces_ahead ⟨.between, ts⟩

theorem weight_step_before (depth : Nat) (ts : List Token) :
    weight ⟨.before depth, ts⟩ = weight (next ⟨.before depth, ts⟩) := by
  cases ts with
  | nil => rw [next, weight_before, weight_behind]
  | cons t ts =>
      rw [next]
      split
      · next ht =>
          subst ht
          split <;> simp <;> omega
      · rw [weight_before, weight_behind]

theorem weight_step_inside (depth : Nat) {t : Token} (ht : t ≠ "\x7d") (ts : List Token) :
    weight ⟨.inside depth, t :: ts⟩ =
      braces (taken ⟨.inside depth, t :: ts⟩) + weight (next ⟨.inside depth, t :: ts⟩) := by
  have hnext : weight (next ⟨.inside depth, t :: ts⟩) =
      depth + 1 + braces (next ⟨.inside depth, t :: ts⟩).ahead := by
    rw [next, if_neg ht]
    dsimp only
    split <;> rfl
  have hahead := braces_ahead ⟨.inside depth, t :: ts⟩
  rw [hnext, weight_inside]
  dsimp only at hahead
  omega

theorem weight_step_collapsed (depth more : Nat) (t : Token) (ts : List Token) :
    weight ⟨.collapsed depth more, t :: ts⟩ = weight (next ⟨.collapsed depth more, t :: ts⟩) := by
  rw [next]
  split
  · next ht =>
      subst ht
      simp
      omega
  · next ho =>
      split
      · next hc =>
          subst hc
          split <;> simp <;> omega
      · next hc => simp [braceWeight_of_ne ho hc]

/-- A step lessens the weight by the stray braces it reads and by those that are lost. -/
theorem weight_step (p : Place) : p.weight = braces p.strays + p.lost + p.next.weight := by
  obtain ⟨stage, ts⟩ := p
  cases stage with
  | between =>
      have hstep := weight_step_between ts
      simpa [strays, lost] using hstep
  | before depth =>
      have hstep := weight_step_before depth ts
      simpa [strays, lost] using hstep
  | inside depth =>
      cases ts with
      | nil =>
          simp only [next, strays, lost, weight_inside, weight_behind, braces_nil]
          omega
      | cons t ts =>
          by_cases ht : t = "\x7d"
          · subst ht
            simp only [next, strays, lost, weight_inside, weight_behind, braces_nil, braces_cons,
              braceWeight_closing, if_true]
            omega
          · have hstep := weight_step_inside depth ht ts
            simpa [strays, lost, ht] using hstep
  | collapsed depth more =>
      cases ts with
      | nil =>
          simp only [next, strays, lost, weight_collapsed, weight_behind, braces_nil]
          omega
      | cons t ts =>
          have hstep := weight_step_collapsed depth more t ts
          simpa [strays, lost] using hstep

/-! Walks. -/

/-- What the first steps read elsewhere than in selection sets. -/
def elsewhere (p : Place) : (steps : Nat) → List Token
  | 0 => []
  | steps + 1 => p.strays ++ p.next.elsewhere steps

def unclosed (p : Place) : (steps : Nat) → Nat
  | 0 => 0
  | steps + 1 => p.lost + p.next.unclosed steps

/-- By induction on the steps, the weight goes down by all strays and by all that is left
unclosed. -/
theorem weight_walk (p : Place) (steps : Nat) :
    p.weight = braces (p.elsewhere steps) + p.unclosed steps + (next^[steps] p).weight := by
  induction steps generalizing p with
  | zero => exact (Int.zero_add _).symm
  | succ steps ih =>
      have hstep := weight_step p
      have hwalk := ih p.next
      rw [elsewhere, unclosed, Function.iterate_succ_apply, braces_append]
      omega

theorem ahead_walk_suffix (p : Place) (steps : Nat) : (next^[steps] p).ahead <:+ p.ahead := by
  induction steps generalizing p with
  | zero => exact List.suffix_refl _
  | succ steps ih => exact (ih p.next).trans p.ahead_next_suffix

theorem RunsOut.ahead_eq_nil {p : Place} (h : p.RunsOut) : p.ahead = [] := by
  obtain ⟨stage, _ | ⟨t, ts⟩⟩ := p
  · rfl
  · cases stage <;> exact h.elim

/-- Nothing is left unclosed just in case no selection set runs out of tokens on the way. -/
theorem unclosed_eq_zero_iff (p : Place) (steps : Nat) :
    p.unclosed steps = 0 ↔ ∀ i < steps, ¬ (next^[i] p).RunsOut := by
  induction steps generalizing p with
  | zero => simp [unclosed]
  | succ steps ih =>
      have hrunsOut := runsOut_iff p
      rw [unclosed, Nat.add_eq_zero_iff, ih p.next, Nat.forall_lt_succ_left]
      simp only [Function.iterate_succ_apply, Function.iterate_zero_apply, hrunsOut, not_not]

/-- A walk that is over stays where it is, so that its steps so far decide. -/
theorem forall_not_runsOut_iff {p : Place} {steps : Nat} (h : next^[steps] p = start []) :
    (∀ i, ¬ (next^[i] p).RunsOut) ↔ p.unclosed steps = 0 := by
  rw [unclosed_eq_zero_iff]
  refine ⟨fun hno i _ => hno i, fun hno i => ?_⟩
  rcases Nat.lt_or_ge i steps with hi | hi
  · exact hno i hi
  -- behind the document nothing more can run out
  · have hend : next^[i] p = start [] := by
      rw [← Nat.sub_add_cancel hi, Function.iterate_add_apply, h]
      exact Function.iterate_fixed rfl _
    rw [hend]
    exact id

/-- A selection set runs out at the end of the tokens only. -/
theorem unclosed_eq_zero {p : Place} {steps : Nat} (h : (next^[steps] p).ahead ≠ []) :
    p.unclosed steps = 0 := by
  -- behind a set that has run out of tokens none are left
  refine (unclosed_eq_zero_iff p steps).mpr fun i hi hrunsOut => h ?_
  obtain ⟨more, rfl⟩ := Nat.exists_eq_add_of_lt hi
  have hsuffix := ahead_walk_suffix (next^[i] p) (more + 1)
  rw [hrunsOut.ahead_eq_nil, ← Function.iterate_add_apply, Nat.add_comm (more + 1)] at hsuffix
  exact List.suffix_nil.mp hsuffix

/-- As long as tokens are left, the braces of a document and those of its selection sets differ
by the ones that belong to none. -/
theorem exists_read {ts : List Token} {p : Place} {steps : Nat}
    (hp : next^[steps] (start ts) = p) (hahead : p.ahead ≠ []) :
    ∃ read, ts = read ++ p.ahead ∧
      braces read = p.stage.openBraces + braces ((start ts).elsewhere steps) := by
  subst hp
  obtain ⟨read, hread⟩ := ahead_walk_suffix (start ts) steps
  have hwalk := weight_walk (start ts) steps
  have hcount := congrArg braces hread
  -- no set has run out so far, so nothing is lost
  rw [unclosed_eq_zero hahead, weight_start, weight] at hwalk
  rw [braces_append] at hcount
  refine ⟨read, hread.symm, ?_⟩
  change _ = braces ts at hcount
  omega

end Place

end QueryOutline
