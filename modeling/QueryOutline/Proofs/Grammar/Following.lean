import QueryOutline.Proofs.Grammar.OnCursor

/-!
The rules that move a cursor follow the rules on lists: at a cursor inside its
tokens they end, without a fault, with what the rule on lists reads from the
remaining tokens, in front of what that rule leaves. One lemma for each way to put
rules together carries this to the whole grammar; every loop is followed by
induction along the recursion it stands for.
-/

namespace QueryOutline

namespace Cursor

variable {tokens rest : List Token}

def ahead (tokens rest : List Token) : Cursor :=
  ⟨tokens, tokens.length - rest.length⟩

theorem drop_ahead (h : rest <:+ tokens) : tokens.drop (tokens.length - rest.length) = rest :=
  (List.suffix_iff_eq_drop.mp h).symm

theorem remaining_ahead (h : rest <:+ tokens) : (ahead tokens rest).remaining = rest :=
  drop_ahead h

/-- A cursor inside its tokens stands in front of what remains of them. -/
theorem ahead_remaining {c : Cursor} (h : c.position ≤ c.tokens.length) :
    ahead c.tokens c.remaining = c := by
  have hp : c.tokens.length - (c.tokens.length - c.position) = c.position := by omega
  rw [ahead, remaining, List.length_drop, hp]

theorem remaining_suffix (c : Cursor) : c.remaining <:+ c.tokens :=
  List.drop_suffix _ _

theorem getElem?_ahead (h : rest <:+ tokens) (i : Nat) :
    tokens[tokens.length - rest.length + i]? = rest[i]? := by
  rw [← List.getElem?_drop, drop_ahead h]

/-- The token at the position of a cursor is the first one ahead. -/
theorem peek_ahead (h : rest <:+ tokens) : (ahead tokens rest).peek = rest.head? := by
  rw [List.head?_eq_getElem?, ← getElem?_ahead h]
  simp [peek, ahead]

theorem peek_one_ahead (h : rest <:+ tokens) :
    (ahead tokens rest).peek 1 = rest.tail.head? := by
  rw [List.head?_eq_getElem?, List.getElem?_tail, ← getElem?_ahead h]
  rfl

theorem isAt_ahead (h : rest <:+ tokens) (candidates : List Token) :
    (ahead tokens rest).isAt candidates = rest.head?.any candidates.contains := by
  rw [isAt, peek_ahead h]
  cases rest <;> rfl

theorem exhausted_ahead (h : rest <:+ tokens) :
    (ahead tokens rest).exhausted = rest.isEmpty := by
  have hl := h.length_le
  cases rest with
  | nil => simp [exhausted, ahead]
  | cons t rest =>
      rw [List.length_cons] at hl
      refine decide_eq_false ?_
      change ¬ tokens.length ≤ tokens.length - (rest.length + 1)
      omega

theorem advance_ahead (h : rest <:+ tokens) :
    (ahead tokens rest).advance = ahead tokens rest.tail := by
  have hl := h.length_le
  have hp : min (tokens.length - rest.length + 1) tokens.length =
      tokens.length - rest.tail.length := by
    rw [List.length_tail]
    cases rest with
    | nil => simp
    | cons t rest =>
        simp only [List.length_cons] at hl ⊢
        omega
  simp only [advance, ahead, hp]

theorem skip_ahead (h : rest <:+ tokens) (t : Token) :
    (ahead tokens rest).skip t =
      ahead tokens (if rest.head? = some t then rest.tail else rest) := by
  rw [skip, peek_ahead h, advance_ahead h]
  split <;> rfl

/-- A rule on lists moves a cursor in front of what it leaves. -/
theorem run_ahead {α : Type} (h : rest <:+ tokens) (r : Rule α) (blindly : Bool) :
    (ahead tokens rest).run r blindly =
      ((r.read rest).result, ahead tokens (r.read rest).rest) := by
  have hp : tokens.length - rest.length ≤ tokens.length := Nat.sub_le _ _
  rw [run, remaining_ahead h]
  simp [ahead, hp]

/-! The positions behind a token, and behind what a rule reads after it. -/

theorem position_tail {t : Token} {position : Nat} (h : t :: rest <:+ tokens)
    (hp : position = tokens.length - (t :: rest).length) :
    position + 1 = tokens.length - rest.length := by
  have hl := h.length_le
  rw [List.length_cons] at hl hp
  omega

theorem position_rest {α : Type} {t : Token} {position : Nat} (r : Rule α)
    (h : t :: rest <:+ tokens) (hp : position = tokens.length - (t :: rest).length) :
    position + 1 + (rest.length - (r.read rest).rest.length) =
      tokens.length - (r.read rest).rest.length := by
  have hl := h.length_le
  have hr := r.length_rest_le rest
  rw [List.length_cons] at hl hp
  omega

theorem rest_suffix_of_cons {α : Type} {t : Token} (r : Rule α) (h : t :: rest <:+ tokens) :
    (r.read rest).rest <:+ tokens :=
  (r.rest_suffix rest).trans ((List.suffix_cons t rest).trans h)

end Cursor

open Cursor

namespace OnCursor

variable {α β σ : Type} {tokens rest : List Token}

/-! The single steps. -/

theorem run_exhausted (h : rest <:+ tokens) :
    exhausted.run (ahead tokens rest) = pure (rest.isEmpty, ahead tokens rest) := by
  simp [exhausted, exhausted_ahead h]

theorem run_peek (h : rest <:+ tokens) :
    (peek).run (ahead tokens rest) = pure (rest.head?, ahead tokens rest) := by
  simp [peek, peek_ahead h]

theorem run_peek_one (h : rest <:+ tokens) :
    (peek 1).run (ahead tokens rest) = pure (rest.tail.head?, ahead tokens rest) := by
  simp [peek, peek_one_ahead h]

theorem run_isAt (h : rest <:+ tokens) (candidates : List Token) :
    (isAt candidates).run (ahead tokens rest) =
      pure (rest.head?.any candidates.contains, ahead tokens rest) := by
  simp [isAt, isAt_ahead h]

theorem run_advance (h : rest <:+ tokens) :
    advance.run (ahead tokens rest) = pure ((), ahead tokens rest.tail) := by
  simp [advance, advance_ahead h]

theorem run_take (h : rest <:+ tokens) :
    take.run (ahead tokens rest) = pure (rest.head?, ahead tokens rest.tail) := by
  simp [take, Cursor.take, advance_ahead h, peek_ahead h]

theorem run_skip (h : rest <:+ tokens) (t : Token) :
    (skip t).run (ahead tokens rest) =
      pure ((), ahead tokens (if rest.head? = some t then rest.tail else rest)) := by
  simp [skip, skip_ahead h]

/-! Rules that follow rules on lists. -/

/-- Inside the tokens the rule ends with what the rule on lists reads. -/
def Follows (m : OnCursor α) (r : Rule α) : Prop :=
  ∀ ⦃tokens rest : List Token⦄, rest <:+ tokens →
    m.run (ahead tokens rest) = pure ((r.read rest).result, ahead tokens (r.read rest).rest)

/-- At the given token the rule takes it and ends with what the rule on lists reads
behind it. -/
def FollowsBehind (t : Token) (m : OnCursor α) (r : Rule α) : Prop :=
  ∀ ⦃tokens rest : List Token⦄, t :: rest <:+ tokens →
    m.run (ahead tokens (t :: rest)) =
      pure ((r.read rest).result, ahead tokens (r.read rest).rest)

variable {t : Token} {m : OnCursor α} {r : Rule α} {f : α → OnCursor β} {g : α → Rule β}

theorem Follows.pure (a : α) : Follows (pure a) (pure a) := by
  intro tokens rest h
  rfl

/-- The second rule starts on the cursor where the first one leaves it. -/
theorem Follows.bind (hm : Follows m r) (hf : ∀ a, Follows (f a) (g a)) :
    Follows (m >>= f) (r >>= g) := by
  intro tokens rest h
  have hr := (r.rest_suffix rest).trans h
  rw [StateT.run_bind, hm h, pure_bind, hf _ hr]
  rfl

theorem Follows.map (e : α → β) (hm : Follows m r) : Follows (e <$> m) (e <$> r) := by
  rw [map_eq_pure_bind]
  exact hm.bind fun a => Follows.pure (e a)

theorem follows_take : Follows take Rule.take := by
  intro tokens rest h
  exact run_take h

theorem follows_isAt (t : Token) : Follows (isAt [t]) (Rule.isAt t) := by
  intro tokens rest h
  rw [run_isAt h, Rule.read_isAt]
  cases rest with
  | nil => rfl
  | cons u rest =>
      have hu : [t].contains u = (u == t) := by
        rw [List.contains_cons, List.contains_nil, Bool.or_false]
      rw [List.head?_cons, Option.any_some, hu, Option.some_beq_some]

/-- The rule on the cursor does not ask whether there was anything to step over. -/
theorem Follows.skip_bind (hm : Follows m r) :
    Follows (skip t >>= fun _ => m) (Rule.skip t >>= fun _ => r) := by
  intro tokens rest h
  rw [StateT.run_bind, run_skip h, pure_bind, Rule.read_bind]
  cases rest with
  | nil => exact hm h
  | cons u rest =>
      by_cases hu : u = t
      · subst hu
        rw [List.head?_cons, if_pos rfl, Rule.read_skip_cons_self]
        exact hm ((List.suffix_cons _ _).trans h)
      · have hne : (u :: rest).head? ≠ some t := by simpa using hu
        rw [if_neg hne, Rule.read_skip_of_ne hne]
        exact hm h

/-- Looking at a token before stepping over it is stepping over it when it is there. -/
theorem Follows.isAt_bind {f : Bool → OnCursor β} {g : Bool → Rule β}
    (htrue : FollowsBehind t (f true) (g true)) (hfalse : Follows (f false) (g false)) :
    Follows (isAt [t] >>= f) (Rule.skip t >>= g) := by
  intro tokens rest h
  rw [StateT.run_bind, run_isAt h, pure_bind, Rule.read_bind]
  cases rest with
  | nil => exact hfalse h
  | cons u rest =>
      by_cases hu : u = t
      · subst hu
        rw [Rule.read_skip_cons_self]
        simpa using htrue h
      · have hne : (u :: rest).head? ≠ some t := by simpa using hu
        rw [Rule.read_skip_of_ne hne]
        simpa [hu] using hfalse h

theorem FollowsBehind.bind (hm : FollowsBehind t m r) (hf : ∀ a, Follows (f a) (g a)) :
    FollowsBehind t (m >>= f) (r >>= g) := by
  intro tokens rest h
  have hr := rest_suffix_of_cons r h
  rw [StateT.run_bind, hm h, pure_bind, hf _ hr]
  rfl

theorem FollowsBehind.map (e : α → β) (hm : FollowsBehind t m r) :
    FollowsBehind t (e <$> m) (e <$> r) := by
  rw [map_eq_pure_bind]
  exact hm.bind fun a => Follows.pure (e a)

theorem FollowsBehind.take {f : Option Token → OnCursor α} (hf : Follows (f (some t)) r) :
    FollowsBehind t (OnCursor.take >>= f) r := by
  intro tokens rest h
  rw [StateT.run_bind, run_take h, pure_bind]
  exact hf ((List.suffix_cons _ _).trans h)

theorem FollowsBehind.advance (hm : Follows m r) :
    FollowsBehind t (OnCursor.advance >>= fun _ => m) r := by
  intro tokens rest h
  rw [StateT.run_bind, run_advance h, pure_bind]
  exact hm ((List.suffix_cons _ _).trans h)

/-- Looking ahead shows the token that is there and does not move. -/
theorem FollowsBehind.peek {f : Option Token → OnCursor α} (hf : FollowsBehind t (f (some t)) r) :
    FollowsBehind t (OnCursor.peek >>= f) r := by
  intro tokens rest h
  rw [StateT.run_bind, run_peek h, pure_bind]
  exact hf h

theorem FollowsBehind.isAt {f : Bool → OnCursor α} {candidates : List Token}
    (hf : FollowsBehind t (f (candidates.contains t)) r) :
    FollowsBehind t (OnCursor.isAt candidates >>= f) r := by
  intro tokens rest h
  rw [StateT.run_bind, run_isAt h, pure_bind]
  exact hf h

/-! Loops. One round of a loop either ends it or leads to the next round. -/

section Loops

variable {step : σ → OnCursor (ForInStep σ)} {s s' : σ} {c c' : Cursor} {left : List Token}

theorem run_loop_done (hstep : (step s).run c = pure (.done s', c')) :
    (loop step s).run c = pure (s', c') := by
  change rounds step s c = _
  rw [rounds, hstep]
  rfl

/-- A pass that takes a token leaves the rest of the loop fewer of them. -/
theorem run_loop_yield (h : t :: rest <:+ tokens) (hleft : left <:+ rest)
    (hstep : (step s).run (ahead tokens (t :: rest)) = pure (.yield s', ahead tokens left)) :
    (loop step s).run (ahead tokens (t :: rest)) = (loop step s').run (ahead tokens left) := by
  have hl := hleft.trans ((List.suffix_cons t rest).trans h)
  have hfewer : (ahead tokens left).remaining.length <
      (ahead tokens (t :: rest)).remaining.length := by
    rw [remaining_ahead hl, remaining_ahead h]
    exact Nat.lt_succ_of_le hleft.length_le
  change rounds step s (ahead tokens (t :: rest)) = rounds step s' (ahead tokens left)
  rw [rounds, hstep]
  exact if_pos hfewer

variable {test : OnCursor Bool} {item : OnCursor (Option α)} {found : List α} {a : Option α}

theorem run_collect_stop (ht : test.run c = pure (false, c')) :
    (collect test item found).run c = pure (found, c') := by
  apply run_loop_done
  rw [StateT.run_bind, ht, pure_bind]
  rfl

/-- Where the test holds an item is read and put behind those already found. -/
theorem run_collect_next (h : t :: rest <:+ tokens) (hleft : left <:+ rest)
    (ht : test.run (ahead tokens (t :: rest)) = pure (true, ahead tokens (t :: rest)))
    (hi : item.run (ahead tokens (t :: rest)) = pure (a, ahead tokens left)) :
    (collect test item found).run (ahead tokens (t :: rest)) =
      (collect test item (found ++ a.toList)).run (ahead tokens left) := by
  apply run_loop_yield h hleft
  rw [StateT.run_bind, ht, pure_bind]
  change (item >>= fun a => pure (ForInStep.yield (found ++ a.toList))).run _ = _
  rw [StateT.run_bind, hi, pure_bind]
  rfl

end Loops

theorem run_isBefore (h : rest <:+ tokens) (closing : List Token) :
    (isBefore closing).run (ahead tokens rest) =
      pure (rest.head?.any (!closing.contains ·), ahead tokens rest) := by
  rw [isBefore, StateT.run_bind, run_exhausted h, pure_bind, StateT.run_bind, run_isAt h,
    pure_bind]
  cases rest <;> rfl

theorem mapM_required (ts : List String) :
    (ts.map some).mapM required = (pure ts : OnCursor (List String)) := by
  induction ts with
  | nil => rfl
  | cons t ts ih =>
      rw [List.map_cons, List.mapM_cons, ih]
      rfl

/-- Tokens are collected one by one, up to the first one that closes. -/
theorem run_collect_take {closing : List Token} {found : List (Option Token)}
    (h : rest <:+ tokens) :
    (collect (isBefore closing) (some <$> take) found).run (ahead tokens rest) =
      pure (found ++ (rest.takeWhile (!closing.contains ·)).map some,
        ahead tokens (rest.dropWhile (!closing.contains ·))) := by
  induction rest generalizing found with
  | nil =>
      rw [run_collect_stop (run_isBefore h closing)]
      simp
  | cons t rest ih =>
      have hr : rest <:+ tokens := (List.suffix_cons t rest).trans h
      have htest := run_isBefore h closing
      by_cases ht : t ∈ closing
      · rw [run_collect_stop (by simpa [ht] using htest)]
        simp [ht]
      · have hitem : (some <$> take : OnCursor (Option (Option Token))).run
            (ahead tokens (t :: rest)) = pure (some (some t), ahead tokens rest) := by
          rw [StateT.run_map, run_take h]
          rfl
        rw [run_collect_next h (List.suffix_refl rest) (by simpa [ht] using htest) hitem, ih hr]
        simp [ht]

theorem follows_takeUntil (closing : List Token) :
    Follows (takeUntil closing) (Rule.takeUntil (closing.contains ·)) := by
  intro tokens rest h
  rw [takeUntil, StateT.run_bind, run_collect_take h, pure_bind, List.nil_append, mapM_required]
  rfl

theorem follows_takeUnlessAt (excluded : List Token) :
    Follows (takeUnlessAt excluded) (Rule.takeUnless excluded) := by
  intro tokens rest h
  rw [takeUnlessAt, StateT.run_bind, run_isBefore h, pure_bind]
  cases rest with
  | nil => rfl
  | cons t rest =>
      by_cases ht : t ∈ excluded
      · rw [Rule.read_takeUnless_of_mem ht]
        simp [ht]
      · rw [Rule.read_takeUnless_of_notMem ht]
        simpa [ht] using run_take h

/-- The loop stops in front of the closing token, which is then stepped over. -/
theorem run_collect_item {closing : Token} {m : OnCursor (Option α)}
    {item : Token → Rule (Option α)} (hm : ∀ t, FollowsBehind t m (item t))
    (rest : List Token) :
    ∀ found : List α, rest <:+ tokens → ∃ stop, stop <:+ tokens ∧
      (collect (isBefore [closing]) m found).run (ahead tokens rest) =
        pure (found ++ (Rule.readUntil closing item rest).result, ahead tokens stop) ∧
      (if stop.head? = some closing then stop.tail else stop) =
        (Rule.readUntil closing item rest).rest := by
  fun_induction Rule.readUntil closing item rest with
  | case1 =>
      intro found h
      refine ⟨[], h, ?_, rfl⟩
      rw [run_collect_stop (run_isBefore h _), List.append_nil]
  | case2 rest =>
      intro found h
      refine ⟨closing :: rest, h, ?_, by simp⟩
      have htest := run_isBefore h [closing]
      rw [run_collect_stop (by simpa using htest), List.append_nil]
  | case3 t rest ht read others ih =>
      intro found h
      have hr := rest_suffix_of_cons (item t) h
      have htest := run_isBefore h [closing]
      rw [run_collect_next h ((item t).rest_suffix rest) (by simpa [ht] using htest) (hm t h),
        ← List.append_assoc]
      exact ih _ hr

/-- The rule takes the opening bracket and goes on to the closing one. -/
theorem followsBehind_inside {closing : Token} {m : OnCursor (Option α)}
    {item : Token → Rule (Option α)} (hm : ∀ u, FollowsBehind u m (item u)) (t : Token) :
    FollowsBehind t (inside closing m) (Rule.manyUntil closing item) := by
  apply FollowsBehind.advance
  intro tokens rest h
  obtain ⟨stop, hstop, hrun, hskip⟩ := run_collect_item hm rest [] h
  rw [StateT.run_bind, hrun, pure_bind, StateT.run_bind, run_skip hstop, hskip]
  rfl

/-- The loop goes on as long as the marker is there, and what is found grows at its end. -/
theorem run_collect_marked {marker : Token} {m : OnCursor α} {item : Rule α}
    (hm : FollowsBehind marker m item) (rest : List Token) :
    ∀ found : List α, rest <:+ tokens →
      (collect (isAt [marker]) (some <$> m) found).run (ahead tokens rest) =
        pure (found ++ (Rule.readMarked marker item rest).result,
          ahead tokens (Rule.readMarked marker item rest).rest) := by
  fun_induction Rule.readMarked marker item rest with
  | case1 =>
      intro found h
      rw [run_collect_stop (run_isAt h _), List.append_nil]
  | case2 rest read others ih =>
      intro found h
      have hr := rest_suffix_of_cons item h
      have htest := run_isAt h [marker]
      have hitem : (some <$> m).run (ahead tokens (marker :: rest)) =
          pure (some read.result, ahead tokens read.rest) := by
        rw [StateT.run_map, hm h]
        rfl
      rw [run_collect_next h (item.rest_suffix rest) (by simpa using htest) hitem, ih _ hr,
        List.append_assoc]
      rfl
  | case3 t rest ht =>
      intro found h
      have htest := run_isAt h [marker]
      rw [run_collect_stop (by simpa [ht] using htest), List.append_nil]

theorem follows_collect_marked {marker : Token} {m : OnCursor α} {item : Rule α}
    (hm : FollowsBehind marker m item) :
    Follows (collect (isAt [marker]) (some <$> m) []) (Rule.manyMarked marker item) := by
  intro tokens rest h
  rw [run_collect_marked hm rest [] h, List.nil_append]
  rfl

end OnCursor

end QueryOutline
