import QueryOutline.Proofs.Grammar.Following

/-!
The whole grammar on a cursor follows the grammar on lists, rule by rule, so no
rule runs into a fault and every loop ends. A selection set at a depth has as many
levels to expand as the depth leaves.
-/

namespace QueryOutline

open Cursor

namespace OnCursor

variable {tokens rest : List Token} {t : Token}

/-! Values. -/

theorem splitValue_cons (depth : Int) (t : Token) (rest : List Token) :
    splitValue depth (t :: rest) =
      if endsValue (depth + bracketWeight t) (some t) rest.head? then ([], t :: rest)
      else (t :: (splitValue (depth + bracketWeight t) rest).1,
        (splitValue (depth + bracketWeight t) rest).2) := rfl

theorem run_valueStep (h : t :: rest <:+ tokens) (parts : List (Option Token)) (depth : Int) :
    (valueStep (parts, depth)).run (ahead tokens (t :: rest)) =
      if endsValue (depth + bracketWeight t) (some t) rest.head? then
        pure (.done (parts, depth + bracketWeight t), ahead tokens (t :: rest))
      else pure (.yield (parts ++ [some t], depth + bracketWeight t), ahead tokens rest) := by
  rw [valueStep, StateT.run_bind, run_exhausted h, pure_bind]
  simp only [List.isEmpty_cons, Bool.false_eq_true, if_false]
  rw [StateT.run_bind, run_peek h, pure_bind, StateT.run_bind, run_peek_one h, pure_bind]
  change StateT.run (if endsValue (depth + bracketWeight t) (some t) rest.head? then _
    else advance >>= fun _ => _) _ = _
  split
  · rfl
  · rw [StateT.run_bind, run_advance h, pure_bind]
    rfl

/-- The loop ends where the tokens of the value do, whatever it has gathered before. -/
theorem run_loop_valueStep (rest : List Token) :
    ∀ parts depth, rest <:+ tokens → ∃ last,
      (loop valueStep (parts, depth)).run (ahead tokens rest) =
        pure ((parts ++ (splitValue depth rest).1.map some, last),
          ahead tokens (splitValue depth rest).2) := by
  induction rest with
  | nil =>
      intro parts depth h
      refine ⟨depth, run_loop_done ?_⟩
      rw [valueStep, StateT.run_bind, run_exhausted h, pure_bind]
      simp [splitValue]
  | cons t rest ih =>
      intro parts depth h
      have hr : rest <:+ tokens := (List.suffix_cons t rest).trans h
      have hstep := run_valueStep h parts depth
      rw [splitValue_cons]
      by_cases hend : endsValue (depth + bracketWeight t) (some t) rest.head? = true
      · rw [if_pos hend] at hstep ⊢
        refine ⟨depth + bracketWeight t, ?_⟩
        rw [run_loop_done hstep, List.map_nil, List.append_nil]
      · rw [if_neg hend] at hstep ⊢
        obtain ⟨last, hlast⟩ := ih (parts ++ [some t]) (depth + bracketWeight t) hr
        refine ⟨last, ?_⟩
        rw [run_loop_yield h (List.suffix_refl rest) hstep, hlast, List.append_assoc]
        rfl

theorem follows_value : Follows value Rule.value := by
  intro tokens rest h
  obtain ⟨last, hlast⟩ := run_loop_valueStep rest [] 0 h
  rw [value, StateT.run_bind, hlast, pure_bind, List.nil_append]
  simp only [mapM_required, pure_bind]
  rfl

theorem followsBehind_argument (t : Token) : FollowsBehind t argument (Rule.argument t) := by
  refine FollowsBehind.take (Follows.isAt_bind ?_ (Follows.pure none))
  exact FollowsBehind.advance (follows_value.bind fun _ => Follows.pure _)

theorem follows_arguments : Follows arguments Rule.arguments :=
  Follows.isAt_bind (followsBehind_inside followsBehind_argument "(") (Follows.pure [])

theorem followsBehind_directive : FollowsBehind t directive (do
    let name ← Rule.take
    return ⟨name.getD "", ← Rule.arguments⟩) := by
  refine FollowsBehind.advance (follows_take.bind fun name => ?_)
  exact follows_arguments.bind fun _ => Follows.pure _

theorem follows_directives : Follows directives Rule.directives :=
  follows_collect_marked followsBehind_directive

/-! Blocks that are not expanded. -/

theorem run_skipStep (h : t :: rest <:+ tokens) (depth : Int) :
    (skipStep depth).run (ahead tokens (t :: rest)) =
      pure (if t = "\x7b" then .yield (depth + 1)
        else if t = "\x7d" then if depth = 1 then .done 0 else .yield (depth - 1)
        else .yield depth, ahead tokens rest) := by
  rw [skipStep, StateT.run_bind, run_exhausted h, pure_bind]
  simp only [List.isEmpty_cons, Bool.false_eq_true, if_false]
  rw [StateT.run_bind, run_take h, pure_bind]
  simp only [List.head?_cons, Option.some.injEq, List.tail_cons]
  split
  · rfl
  · split
    · split <;> rfl
    · rfl

/-- The loop ends behind the brace that brings its depth to nothing, or with the tokens. -/
theorem run_loop_skipStep (rest : List Token) :
    ∀ depth, rest <:+ tokens → ∃ last,
      (loop skipStep depth).run (ahead tokens rest) =
        pure (last, ahead tokens (afterBlock depth rest)) := by
  induction rest with
  | nil =>
      intro depth h
      refine ⟨depth, run_loop_done ?_⟩
      rw [skipStep, StateT.run_bind, run_exhausted h, pure_bind]
      rfl
  | cons t rest ih =>
      intro depth h
      have hr : rest <:+ tokens := (List.suffix_cons t rest).trans h
      have hstep := run_skipStep h depth
      rw [afterBlock]
      by_cases hopening : t = "\x7b"
      · rw [if_pos hopening] at hstep ⊢
        rw [run_loop_yield h (List.suffix_refl rest) hstep]
        exact ih (depth + 1) hr
      · by_cases hclosing : t = "\x7d"
        · by_cases hlast : depth = 1
          · rw [if_neg hopening, if_pos hclosing, if_pos hlast] at hstep ⊢
            exact ⟨0, run_loop_done hstep⟩
          · rw [if_neg hopening, if_pos hclosing, if_neg hlast] at hstep ⊢
            rw [run_loop_yield h (List.suffix_refl rest) hstep]
            exact ih (depth - 1) hr
        · rw [if_neg hopening, if_neg hclosing] at hstep ⊢
          rw [run_loop_yield h (List.suffix_refl rest) hstep]
          exact ih depth hr

theorem follows_skipBlock : Follows skipBlock Rule.wholeBlock := by
  intro tokens rest h
  obtain ⟨last, hlast⟩ := run_loop_skipStep rest 0 h
  rw [skipBlock, StateT.run_bind, hlast, pure_bind]
  rfl

/-! Selections. -/

section Selections

variable {below : OnCursor (Forest Head)} {selections : Rule (Forest Head)}

theorem follows_fieldFrom (hb : Follows below (Rule.selectionSet selections))
    (first : Option Token) :
    Follows (fieldFrom below first) (Rule.field selections first) := by
  have hrest (head : List Argument → List Directive → Head) : Follows
      (arguments >>= fun as => directives >>= fun ds => below >>= fun f =>
        pure (⟨head as ds, f⟩ : Node))
      (Rule.arguments >>= fun as => Rule.directives >>= fun ds =>
        Rule.selectionSet selections >>= fun f => pure ⟨head as ds, f⟩) := by
    refine follows_arguments.bind fun as => follows_directives.bind fun ds => ?_
    exact hb.bind fun _ => Follows.pure _
  let head (name aliasName : Option Token) (arguments : List Argument)
      (directives : List Directive) : Head :=
    { kind := .field, name := some (name.getD ""), arguments, directives, aliasName }
  refine Follows.isAt_bind ?_ ?_
  · exact FollowsBehind.advance (follows_take.bind fun name => hrest (head name first))
  · exact hrest (head first none)

theorem follows_field (hb : Follows below (Rule.selectionSet selections)) :
    Follows (field below) (Rule.fieldHere selections) :=
  follows_take.bind fun first => follows_fieldFrom hb first

theorem follows_inlineFragment (hb : Follows below (Rule.selectionSet selections)) :
    Follows (inlineFragment below) (Rule.inlineFragment selections) :=
  follows_take.bind fun _ => hb.bind fun _ => Follows.pure _

theorem follows_spread (hb : Follows below (Rule.selectionSet selections)) (attached : String) :
    Follows (spread below attached) (Rule.spread selections attached) := by
  by_cases hon : attached = "on"
  · subst hon
    intro tokens rest h
    rw [spread, StateT.run_bind, run_isAt h, pure_bind, StateT.run_bind, run_isAt h, pure_bind]
    exact follows_inlineFragment hb h
  · by_cases hempty : attached = ""
    · subst hempty
      refine Follows.isAt_bind (FollowsBehind.isAt ?_) ?_
      · exact FollowsBehind.advance (follows_inlineFragment hb)
      · refine (follows_isAt "\x7b").bind ?_
        rintro (_ | _)
        · exact follows_take.bind fun _ => Follows.pure _
        · exact hb.bind fun _ => Follows.pure _
    · intro tokens rest h
      rw [spread, StateT.run_bind, run_isAt h, pure_bind, StateT.run_bind, run_isAt h, pure_bind,
        Rule.spread]
      simp [hon, hempty]

theorem followsBehind_selection (hb : Follows below (Rule.selectionSet selections)) (t : Token) :
    FollowsBehind t (selection below) (Rule.selection selections t) := by
  apply FollowsBehind.peek
  rw [Rule.selection, Option.bind_some]
  cases Rule.attachedWord? t with
  | none => exact FollowsBehind.take (follows_fieldFrom hb (some t))
  | some attached => exact FollowsBehind.advance (follows_spread hb attached)

theorem follows_selection (hb : Follows below (Rule.selectionSet selections)) :
    Follows (selection below) (Rule.selectionHere selections) := by
  intro tokens rest h
  cases rest with
  | nil =>
      rw [selection, StateT.run_bind, run_peek h, pure_bind]
      exact follows_field hb h
  | cons t rest => exact followsBehind_selection hb t h

end Selections

/-- The levels of a depth are used up one by one. -/
theorem follows_selectionSet_of_levels (levels : Nat) :
    ∀ depth, maxNestingDepth - depth = levels →
      Follows (selectionSet depth) (Rule.selectionSet (Rule.selections levels)) := by
  induction levels with
  | zero =>
      intro depth hd
      have hdeep : maxNestingDepth ≤ depth := by omega
      rw [selectionSet]
      refine Follows.isAt_bind ?_ (Follows.pure _)
      simp only [if_true, hdeep]
      refine FollowsBehind.bind ?_ fun _ => Follows.pure _
      intro tokens rest h
      exact follows_skipBlock h
  | succ levels ih =>
      intro depth hd
      have hshallow : ¬ maxNestingDepth ≤ depth := by omega
      have hb := ih (depth + 1) (by omega)
      rw [selectionSet]
      refine Follows.isAt_bind ?_ (Follows.pure _)
      simp only [if_true, hshallow, if_false]
      refine FollowsBehind.bind ?_ fun _ => Follows.pure _
      refine followsBehind_inside ?_ "\x7b"
      intro t tokens rest h
      rw [StateT.run_map, followsBehind_selection hb t h]
      rfl

/-- The depth that the cursor counts up and the levels that are counted down make up the limit. -/
theorem follows_selectionSet (depth : Nat) :
    Follows (selectionSet depth) (Rule.braced (maxNestingDepth - depth)) :=
  follows_selectionSet_of_levels _ depth rfl

theorem followsBehind_selectionSet (depth : Nat) :
    FollowsBehind "\x7b" (selectionSet depth) (Rule.selections (maxNestingDepth - depth)) := by
  intro tokens rest h
  have hread : (Rule.braced (maxNestingDepth - depth)).read ("\x7b" :: rest) =
      (Rule.selections (maxNestingDepth - depth)).read rest := by
    rw [Rule.braced, Rule.selectionSet, Rule.read_bind, Rule.read_skip_cons_self]
    rfl
  rw [follows_selectionSet depth h, hread]

/-! Definitions. -/

theorem followsBehind_variableDefinition (t : Token) :
    FollowsBehind t variableDefinition (Rule.variableDefinition t) := by
  apply FollowsBehind.isAt
  by_cases ht : t = "$"
  · subst ht
    refine FollowsBehind.advance (follows_take.bind fun name => Follows.skip_bind ?_)
    refine (follows_takeUntil _).bind fun type => Follows.isAt_bind ?_ ?_
    · exact FollowsBehind.advance (follows_take.bind fun _ => Follows.pure _)
    · exact Follows.pure _
  · have hc : ["$"].contains t = false := by simpa using ht
    rw [hc, Rule.variableDefinition, if_pos ht]
    exact FollowsBehind.advance (Follows.pure none)

theorem follows_variableDefinitions : Follows variableDefinitions Rule.variableDefinitions :=
  Follows.isAt_bind (followsBehind_inside followsBehind_variableDefinition "(") (Follows.pure [])

theorem followsBehind_operation (type : OperationType) (t : Token) :
    FollowsBehind t (operation type) (Rule.operation type) := by
  refine FollowsBehind.advance ((follows_takeUnlessAt _).bind fun name => ?_)
  refine follows_variableDefinitions.bind fun vs => ?_
  exact (follows_selectionSet 0).bind fun _ => Follows.pure _

theorem follows_fragmentDefinition : Follows fragmentDefinition Rule.fragmentDefinition := by
  refine follows_take.bind fun name => Follows.skip_bind ?_
  refine (follows_takeUnlessAt _).bind fun typeCondition => ?_
  exact (follows_selectionSet 0).bind fun _ => Follows.pure _

theorem run_definition_of_some {m : OnCursor (Option Node)} {r : Rule Node}
    (hd : Rule.definition? t = some r) (hm : FollowsBehind t m (some <$> r))
    (h : t :: rest <:+ tokens) :
    m.run (ahead tokens (t :: rest)) =
      pure ((Rule.definition.read (t :: rest)).result,
        ahead tokens (Rule.definition.read (t :: rest)).rest) := by
  rw [hm h, Rule.read_definition_of_some hd, Rule.read_map]

theorem follows_definition : Follows definition Rule.definition := by
  intro tokens rest h
  rw [definition, StateT.run_bind, run_peek h, pure_bind]
  cases rest with
  | nil => rfl
  | cons t rest =>
      rw [List.head?_cons]
      by_cases hfragment : t = "fragment"
      · subst hfragment
        exact run_definition_of_some rfl
          (FollowsBehind.advance (follows_fragmentDefinition.map some)) h
      · by_cases hbrace : t = "\x7b"
        · subst hbrace
          exact run_definition_of_some rfl
            ((followsBehind_selectionSet 0).bind fun _ => Follows.pure _) h
        · have hd : Rule.definition? t = (OperationType.ofText? t).map Rule.operation := by
            rw [Rule.definition?, if_neg hfragment, if_neg hbrace]
          simp only [Option.some.injEq, hfragment, hbrace, if_false, Option.bind_some]
          cases ht : OperationType.ofText? t with
          | none =>
              rw [ht] at hd
              rw [Rule.read_definition_of_none hd]
              rfl
          | some type =>
              rw [ht] at hd
              exact run_definition_of_some hd ((followsBehind_operation type t).map some) h

/-! Documents. -/

/-- A token that begins no definition is skipped, and its position noted. -/
theorem run_definitionsStep_of_none (hd : Rule.definition? t = none) (h : t :: rest <:+ tokens)
    (nodes : List Node) (skipped : List Nat) :
    (definitionsStep (nodes, skipped)).run (ahead tokens (t :: rest)) =
      pure (.yield (nodes, skipped ++ [tokens.length - (t :: rest).length]),
        ahead tokens rest) := by
  have hfound := follows_definition h
  rw [Rule.read_definition_of_none hd] at hfound
  rw [definitionsStep, StateT.run_bind, run_exhausted h, pure_bind]
  simp only [List.isEmpty_cons, Bool.false_eq_true, if_false, StateT.run_bind, StateT.run_get,
    pure_bind, hfound]
  simp only [if_true, StateT.run_bind, StateT.run_set, pure_bind, advance_ahead h, List.tail_cons]
  rfl

theorem run_definitionsStep_of_some {r : Rule Node} (hd : Rule.definition? t = some r)
    (h : t :: rest <:+ tokens) (nodes : List Node) (skipped : List Nat) :
    (definitionsStep (nodes, skipped)).run (ahead tokens (t :: rest)) =
      pure (.yield (nodes ++ [(r.read rest).result], skipped),
        ahead tokens (r.read rest).rest) := by
  have hfound := follows_definition h
  have hl := h.length_le
  have hr := r.length_rest_le rest
  -- the keyword at least has been taken
  have hmoved : tokens.length - (r.read rest).rest.length ≠
      tokens.length - (t :: rest).length := by
    rw [List.length_cons] at hl ⊢
    omega
  rw [Rule.read_definition_of_some hd] at hfound
  rw [definitionsStep, StateT.run_bind, run_exhausted h, pure_bind]
  simp only [List.isEmpty_cons, Bool.false_eq_true, if_false, StateT.run_bind, StateT.run_get,
    pure_bind, hfound]
  simp only [ahead, hmoved, if_false]
  rfl

/-- The loop puts definitions and skipped positions behind those it has already. -/
theorem run_loop_definitionsStep (position : Nat) (rest : List Token) :
    ∀ nodes skipped, rest <:+ tokens → position = tokens.length - rest.length →
      (loop definitionsStep (nodes, skipped)).run (ahead tokens rest) =
        pure ((nodes ++ (Definitions.readFrom position rest).forest.toList,
          skipped ++ (Definitions.readFrom position rest).skipped), ahead tokens []) := by
  fun_induction Definitions.readFrom position rest with
  | case1 position =>
      intro nodes skipped h hp
      apply run_loop_done
      rw [definitionsStep, StateT.run_bind, run_exhausted h, pure_bind]
      simp [Forest.toList]
  | case2 position t rest hd others ih =>
      intro nodes skipped h hp
      have hr := (List.suffix_cons t rest).trans h
      rw [run_loop_yield h (List.suffix_refl rest) (run_definitionsStep_of_none hd h nodes skipped),
        ih _ _ hr (position_tail h hp), List.append_assoc, ← hp]
      rfl
  | case3 position t rest r hd found others ih =>
      intro nodes skipped h hp
      have hr := rest_suffix_of_cons r h
      rw [run_loop_yield h (r.rest_suffix rest) (run_definitionsStep_of_some hd h nodes skipped),
        ih _ _ hr (position_rest r h hp), List.append_assoc]
      rfl

/-- Reading a document from its beginning ends behind its last token. -/
theorem run_definitions (ts : List Token) :
    definitions.run ⟨ts, 0⟩ = pure (parseDefinitions ts, ⟨ts, ts.length⟩) := by
  have hstart : (⟨ts, 0⟩ : Cursor) = ahead ts ts := by
    rw [ahead, Nat.sub_self]
  have h := run_loop_definitionsStep 0 ts [] [] (List.suffix_refl ts) (Nat.sub_self _).symm
  rw [definitions, StateT.run_bind, hstart, h, pure_bind]
  simp only [List.nil_append, Forest.ofList_toList]
  rfl

end OnCursor

end QueryOutline
