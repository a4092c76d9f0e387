import QueryOutline.Grammar.Definition

/-!
Rules that stop in front of the last token. Such a rule has read all it wanted: it has not
looked behind that token, and of the token itself it has seen at most that it is none of
the marks of the grammar. So the rule finds the same when other tokens follow, and when
another token that is no mark stands in the place of the last one.
-/

namespace QueryOutline

namespace Rule

/-- The tokens that a rule may stop in front of for what they are. -/
def marks : List Token :=
  ["\x7b", "\x7d", "(", ")", ":", "@", "$", "=", "on"]

def IsPlain (t : Token) : Prop :=
  t ∉ marks

/-- Behind the tokens that are left, a token can be exchanged for another one. A rule that
leaves more than the last token has only asked whether that one is a colon. -/
def Exchangeable (left : List Token) (t u : Token) : Prop :=
  t = u ∨ (t ≠ ":" ∧ u ≠ ":") ∧ (left ≠ [] ∨ IsPlain t ∧ IsPlain u)

variable {left more behind ts us : List Token} {t u s : Token}

theorem Exchangeable.mono (h : Exchangeable left t u) (hl : left <:+ more) :
    Exchangeable more t u := by
  rcases h with h | ⟨hc, h | h⟩
  · exact .inl h
  · refine .inr ⟨hc, .inl ?_⟩
    rintro rfl
    exact h (List.suffix_nil.mp hl)
  · exact .inr ⟨hc, .inr h⟩

/-- With nothing in front of it a mark is exchanged for no other token. -/
theorem Exchangeable.eq_iff_of_mem (h : Exchangeable [] t u) (hs : s ∈ marks) :
    t = s ↔ u = s := by
  rcases h with rfl | ⟨_, h | ⟨ht, hu⟩⟩
  · rfl
  · contradiction
  · constructor
    · rintro rfl
      exact absurd hs ht
    · rintro rfl
      exact absurd hs hu

theorem Exchangeable.eq_colon_iff (h : Exchangeable left t u) : t = ":" ↔ u = ":" := by
  rcases h with rfl | ⟨⟨ht, hu⟩, _⟩
  · rfl
  · simp [ht, hu]

/-- What is left in front of a last token is an end part of what stood in front of it. -/
theorem exists_left_of_suffix (h : left ++ [t] <:+ us) (hus : us <:+ ts ++ [t]) :
    ∃ more, us = more ++ [t] ∧ left <:+ more := by
  obtain ⟨before, rfl⟩ := h
  exact ⟨before ++ left, by simp, List.suffix_append _ _⟩

variable {α β : Type} {r : Rule α}

/-- A rule that leaves the last token does not depend on what stands in its place and
behind it. -/
def Steady (r : Rule α) : Prop :=
  ∀ ⦃ts left : List Token⦄ ⦃t u : Token⦄ ⦃a : α⦄ (behind : List Token), Exchangeable left t u →
    r.read (ts ++ [t]) = ⟨a, left ++ [t]⟩ → r.read (ts ++ u :: behind) = ⟨a, left ++ u :: behind⟩

theorem parsed_concat_inj (ts : List Token) {a b : α} :
    (⟨a, ts ++ [t]⟩ : Parsed α) = ⟨b, left ++ [t]⟩ ↔ a = b ∧ ts = left := by
  rw [Parsed.mk.injEq, List.append_left_inj]

theorem Steady.pure (a : α) : Steady (pure a) := by
  intro ts left t u b behind _ h
  obtain ⟨rfl, rfl⟩ := (parsed_concat_inj _).mp h
  rfl

/-- A rule that leaves more than is left in the end. -/
theorem Steady.exists_read (hr : Steady r) (hu : Exchangeable left t u)
    (h : left ++ [t] <:+ (r.read (ts ++ [t])).rest) (behind : List Token) :
    ∃ a more, left <:+ more ∧ r.read (ts ++ [t]) = ⟨a, more ++ [t]⟩ ∧
      r.read (ts ++ u :: behind) = ⟨a, more ++ u :: behind⟩ := by
  obtain ⟨more, hm, hl⟩ := exists_left_of_suffix h (r.rest_suffix _)
  have hread : r.read (ts ++ [t]) = ⟨(r.read (ts ++ [t])).result, more ++ [t]⟩ := by rw [← hm]
  exact ⟨_, more, hl, hread, hr behind (hu.mono hl) hread⟩

/-- The same behind a token that has been taken, which then is not the last one. -/
theorem Steady.exists_read_tail (hr : Steady r) (hu : Exchangeable left t u)
    (h : left ++ [t] <:+ (r.read us).rest) (hus : s :: us = ts ++ [t]) (behind : List Token) :
    ∃ others a more, ts = s :: others ∧ r.read us = ⟨a, more ++ [t]⟩ ∧
      r.read (others ++ u :: behind) = ⟨a, more ++ u :: behind⟩ := by
  cases ts with
  | nil =>
      obtain ⟨rfl, rfl⟩ := List.cons.inj hus
      have hnil := List.suffix_nil.mp (h.trans (r.rest_suffix []))
      simp at hnil
  | cons s others =>
      obtain ⟨rfl, rfl⟩ := List.cons.inj hus
      obtain ⟨a, more, -, hread, hread'⟩ := hr.exists_read hu h behind
      exact ⟨others, a, more, rfl, hread, hread'⟩

/-- The first rule leaves all that is left in the end, and the last token with it. -/
theorem Steady.bind {x : Rule α} {f : α → Rule β} (hx : Steady x) (hf : ∀ a, Steady (f a)) :
    Steady (x >>= f) := by
  intro ts left t u b behind hu h
  rw [read_bind] at h ⊢
  have hs : left ++ [t] <:+ (x.read (ts ++ [t])).rest := by
    have hr := (f (x.read (ts ++ [t])).result).rest_suffix (x.read (ts ++ [t])).rest
    rwa [h] at hr
  obtain ⟨a, more, -, hread, hread'⟩ := hx.exists_read hu hs behind
  rw [hread] at h
  rw [hread']
  exact hf a behind hu h

theorem Steady.map (f : α → β) (h : Steady r) : Steady (f <$> r) :=
  h.bind fun a => .pure (f a)

theorem Steady.ite {c : Prop} [Decidable c] {x y : Rule α} (hx : Steady x) (hy : Steady y) :
    Steady (if c then x else y) := by
  split
  · exact hx
  · exact hy

/-! Single steps. -/

/-- A token that is taken is not the last one, as that one is left. -/
theorem steady_take : Steady take := by
  intro ts left t u a behind _ h
  cases ts with
  | nil => simp at h
  | cons s ts =>
      obtain ⟨rfl, rfl⟩ := (parsed_concat_inj _).mp h
      rfl

/-- A rule may ask for a mark, since the last token and its substitute answer alike. -/
theorem steady_isAt (hs : s ∈ marks) : Steady (isAt s) := by
  intro ts left t u a behind hu h
  rw [read_isAt] at h ⊢
  obtain ⟨rfl, rfl⟩ := (parsed_concat_inj _).mp h
  cases ts with
  | nil =>
      have heq : (u == s) = (t == s) := by
        rw [Bool.eq_iff_iff, beq_iff_eq, beq_iff_eq]
        exact (hu.eq_iff_of_mem hs).symm
      simp [heq]
  | cons s ts => rfl

theorem steady_skip (hs : s ∈ marks) : Steady (skip s) := by
  refine (steady_isAt hs).bind ?_
  rintro (_ | _)
  · exact .pure false
  · exact steady_take.bind fun _ => .pure true

theorem read_takeUntil_of_pos {p : Token → Bool} (hs : p s = true) (ts : List Token) :
    (takeUntil p).read (s :: ts) = ⟨[], s :: ts⟩ := by
  simp [takeUntil, hs]

theorem read_takeUntil_of_neg {p : Token → Bool} (hs : ¬ p s = true) (ts : List Token) :
    (takeUntil p).read (s :: ts) =
      ⟨s :: ((takeUntil p).read ts).result, ((takeUntil p).read ts).rest⟩ := by
  simp [takeUntil, hs]

/-- Only marks stop the rule. -/
theorem steady_takeUntil {p : Token → Bool} (hp : ∀ s, p s = true → s ∈ marks) :
    Steady (takeUntil p) := by
  intro ts left t u a behind hu h
  induction ts generalizing a with
  | nil =>
      by_cases ht : p t = true
      · rw [List.nil_append, read_takeUntil_of_pos ht] at h
        obtain ⟨rfl, rfl⟩ := (parsed_concat_inj []).mp h
        obtain rfl : u = t := (hu.eq_iff_of_mem (hp t ht)).mp rfl
        exact read_takeUntil_of_pos ht behind
      · rw [List.nil_append, read_takeUntil_of_neg ht] at h
        simp [takeUntil] at h
  | cons s ts ih =>
      rw [List.cons_append] at h ⊢
      by_cases hs : p s = true
      · rw [read_takeUntil_of_pos hs] at h ⊢
        obtain ⟨rfl, rfl⟩ := (parsed_concat_inj (s :: ts)).mp h
        rfl
      · rw [read_takeUntil_of_neg hs] at h ⊢
        obtain ⟨rfl, hl⟩ := Parsed.mk.inj h
        have hread : (takeUntil p).read (ts ++ [t]) =
            ⟨((takeUntil p).read (ts ++ [t])).result, left ++ [t]⟩ := by rw [← hl]
        rw [ih hread]

theorem steady_takeUnless {excluded : List Token} (he : ∀ s ∈ excluded, s ∈ marks) :
    Steady (takeUnless excluded) := by
  intro ts left t u a behind hu h
  cases ts with
  | nil =>
      by_cases ht : t ∈ excluded
      · rw [List.nil_append, read_takeUnless_of_mem ht] at h
        obtain ⟨rfl, rfl⟩ := (parsed_concat_inj []).mp h
        obtain rfl : u = t := (hu.eq_iff_of_mem (he t ht)).mp rfl
        exact read_takeUnless_of_mem ht behind
      · rw [List.nil_append, read_takeUnless_of_notMem ht] at h
        simp at h
  | cons s ts =>
      rw [List.cons_append] at h ⊢
      by_cases hs : s ∈ excluded
      · rw [read_takeUnless_of_mem hs] at h ⊢
        obtain ⟨rfl, rfl⟩ := (parsed_concat_inj (s :: ts)).mp h
        rfl
      · rw [read_takeUnless_of_notMem hs] at h ⊢
        obtain ⟨rfl, rfl⟩ := (parsed_concat_inj _).mp h
        rfl

/-- A block does not end in front of the last token. -/
theorem afterBlock_append_exchange {depth : Int} (behind : List Token)
    (h : afterBlock depth (ts ++ [t]) = left ++ [t]) :
    afterBlock depth (ts ++ u :: behind) = left ++ u :: behind := by
  induction ts generalizing depth with
  | nil =>
      have hnil : afterBlock depth [t] = [] := by
        simp only [afterBlock, ite_self]
      rw [List.nil_append, hnil] at h
      simp at h
  | cons s ts ih =>
      simp only [List.cons_append, afterBlock] at h ⊢
      by_cases hopening : s = "\x7b"
      · rw [if_pos hopening] at h ⊢
        exact ih h
      · by_cases hclosing : s = "\x7d"
        · by_cases hlast : depth = 1
          · rw [if_neg hopening, if_pos hclosing, if_pos hlast] at h ⊢
            rw [List.append_cancel_right h]
          · rw [if_neg hopening, if_pos hclosing, if_neg hlast] at h ⊢
            exact ih h
        · rw [if_neg hopening, if_neg hclosing] at h ⊢
          exact ih h

theorem steady_skipBlock (depth : Int) : Steady (skipBlock depth) := by
  intro ts left t u a behind _ h
  exact congrArg (Parsed.mk ()) (afterBlock_append_exchange behind (Parsed.mk.inj h).2)

/-- A value asks of the token behind its last one only whether it is a colon. -/
theorem splitValue_append_exchange {depth : Int} {parts : List Token} (behind : List Token)
    (hu : Exchangeable left t u) (h : splitValue depth (ts ++ [t]) = (parts, left ++ [t])) :
    splitValue depth (ts ++ u :: behind) = (parts, left ++ u :: behind) := by
  induction ts generalizing depth parts with
  | nil =>
      simp only [List.nil_append, splitValue] at h ⊢
      split at h
      -- a value of no tokens, in front of the bracket that closes the arguments
      · next hend =>
          obtain ⟨rfl, hl⟩ := Prod.mk.inj h
          obtain rfl : [] = left := (List.append_left_inj [t]).mp hl
          simp only [List.head?_nil, Bool.and_eq_true, decide_eq_true_eq, Bool.or_eq_true,
            beq_iff_eq, reduceCtorEq, or_false] at hend
          obtain ⟨hd, rfl⟩ := hend
          obtain rfl : u = ")" := (hu.eq_iff_of_mem (by decide)).mp rfl
          simp [hd]
      · simp at h
  | cons s ts ih =>
      -- `u` is looked at in place of `t` only behind the last token of the value
      have hc : ((ts ++ [t]).head? == some ":") = ((ts ++ u :: behind).head? == some ":") := by
        cases ts with
        | nil =>
            rw [Bool.eq_iff_iff]
            simpa using hu.eq_colon_iff
        | cons => rfl
      simp only [List.cons_append, splitValue, hc] at h ⊢
      split at h
      · next hend =>
          obtain ⟨rfl, hl⟩ := Prod.mk.inj h
          obtain rfl : s :: ts = left := (List.append_left_inj [t]).mp hl
          rw [if_pos hend]
          rfl
      · next hend =>
          obtain ⟨rfl, hl⟩ := Prod.mk.inj h
          rw [if_neg hend, ih (Prod.ext rfl hl)]

theorem steady_value : Steady value := by
  refine Steady.bind ?_ fun parts => .pure (joinValue parts)
  intro ts left t u parts behind hu h
  obtain ⟨hp, hl⟩ := Parsed.mk.inj h
  have hread := splitValue_append_exchange behind hu (Prod.ext hp hl)
  exact congrArg (fun x => Parsed.mk x.1 x.2) hread

/-! Loops. -/

theorem readUntil_append_exchange {closing : Token} {item : Token → Rule (Option α)}
    (hi : ∀ s, Steady (item s)) (hu : Exchangeable left t u) (behind us : List Token) :
    ∀ ts found, us = ts ++ [t] → readUntil closing item us = ⟨found, left ++ [t]⟩ →
      readUntil closing item (ts ++ u :: behind) = ⟨found, left ++ u :: behind⟩ := by
  fun_induction readUntil closing item us with
  | case1 =>
      intro ts found hus
      simp at hus
  | case2 us =>
      intro ts found hus h
      cases ts with
      | nil =>
          obtain ⟨rfl, rfl⟩ := List.cons.inj hus
          simp at h
      | cons s ts =>
          obtain ⟨rfl, rfl⟩ := List.cons.inj hus
          obtain ⟨rfl, rfl⟩ := (parsed_concat_inj _).mp h
          exact readUntil_closing closing item _
  | case3 s us hs read others ih =>
      intro ts found hus h
      obtain ⟨rfl, hl⟩ := Parsed.mk.inj h
      -- the round itself leaves the last token, since the rounds behind it do
      have hothers : left ++ [t] <:+ read.rest := by
        rw [← hl]
        exact readUntil_suffix closing item read.rest
      obtain ⟨ts, a, more, rfl, hread, hread'⟩ := (hi s).exists_read_tail hu hothers hus behind
      have hmore : read.rest = more ++ [t] := congrArg Parsed.rest hread
      have hfound : read.result = a := congrArg Parsed.result hread
      have hrest := ih more others.result hmore (by rw [← hl])
      rw [List.cons_append, readUntil, if_neg hs, hread']
      simp only [hrest, hfound]

theorem steady_manyUntil {closing : Token} {item : Token → Rule (Option α)}
    (hi : ∀ s, Steady (item s)) : Steady (manyUntil closing item) := by
  intro ts left t u a behind hu h
  exact readUntil_append_exchange hi hu behind _ ts a rfl h

theorem readMarked_append_exchange {marker : Token} (hm : marker ∈ marks) (hr : Steady r)
    (hu : Exchangeable left t u) (behind us : List Token) :
    ∀ ts found, us = ts ++ [t] → readMarked marker r us = ⟨found, left ++ [t]⟩ →
      readMarked marker r (ts ++ u :: behind) = ⟨found, left ++ u :: behind⟩ := by
  fun_induction readMarked marker r us with
  | case1 =>
      intro ts found hus
      simp at hus
  | case2 us read others ih =>
      intro ts found hus h
      obtain ⟨rfl, hl⟩ := Parsed.mk.inj h
      have hothers : left ++ [t] <:+ read.rest := by
        rw [← hl]
        exact readMarked_suffix marker r read.rest
      obtain ⟨ts, a, more, rfl, hread, hread'⟩ := hr.exists_read_tail hu hothers hus behind
      have hmore : read.rest = more ++ [t] := congrArg Parsed.rest hread
      have hfound : read.result = a := congrArg Parsed.result hread
      have hrest := ih more others.result hmore (by rw [← hl])
      rw [List.cons_append, readMarked, if_pos rfl, hread']
      simp only [hrest, hfound]
  | case3 s us hs =>
      intro ts found hus h
      cases ts with
      | nil =>
          obtain ⟨rfl, rfl⟩ := List.cons.inj hus
          obtain ⟨rfl, rfl⟩ := (parsed_concat_inj []).mp h
          have hne : u ≠ marker := mt (hu.eq_iff_of_mem hm).mpr hs
          rw [List.nil_append, readMarked, if_neg hne]
      | cons s ts =>
          obtain ⟨rfl, rfl⟩ := List.cons.inj hus
          obtain ⟨rfl, rfl⟩ := (parsed_concat_inj (s :: ts)).mp h
          rw [List.cons_append, readMarked, if_neg hs]

theorem steady_manyMarked {marker : Token} (hm : marker ∈ marks) (hr : Steady r) :
    Steady (manyMarked marker r) := by
  intro ts left t u a behind hu h
  exact readMarked_append_exchange hm hr hu behind _ ts a rfl h

/-! The rules of the grammar. -/

theorem steady_argument (name : Token) : Steady (argument name) :=
  (steady_skip (by decide)).bind fun _ =>
    Steady.ite (steady_value.bind fun _ => .pure _) (.pure none)

theorem steady_arguments : Steady arguments :=
  (steady_skip (by decide)).bind fun _ => Steady.ite (steady_manyUntil steady_argument) (.pure [])

theorem steady_directives : Steady directives :=
  steady_manyMarked (by decide) (steady_take.bind fun _ => steady_arguments.bind fun _ => .pure _)

section Selections

variable {selections : Rule (Forest Head)}

theorem Steady.selectionSet (h : Steady selections) : Steady (selectionSet selections) :=
  (steady_skip (by decide)).bind fun _ => Steady.ite h (.pure _)

theorem Steady.field (h : Steady selections) (first : Option Token) :
    Steady (field selections first) := by
  refine (steady_skip (by decide)).bind fun aliased => ?_
  refine Steady.ite (steady_take.bind fun name => ?_) ((Steady.pure first).bind fun name => ?_)
  all_goals
    refine steady_arguments.bind fun _ => steady_directives.bind fun _ => ?_
    exact h.selectionSet.bind fun _ => .pure _

theorem Steady.inlineFragment (h : Steady selections) : Steady (inlineFragment selections) :=
  steady_take.bind fun _ => h.selectionSet.bind fun _ => .pure _

theorem Steady.spread (h : Steady selections) (attached : String) :
    Steady (spread selections attached) := by
  refine Steady.ite h.inlineFragment (Steady.ite (.pure _) ?_)
  refine (steady_skip (by decide)).bind fun _ => Steady.ite h.inlineFragment ?_
  refine (steady_isAt (by decide)).bind fun _ => Steady.ite ?_ ?_
  · exact h.selectionSet.bind fun _ => .pure _
  · exact steady_take.bind fun _ => .pure _

theorem Steady.selection (h : Steady selections) (first : Token) :
    Steady (selection selections first) := by
  unfold Rule.selection
  split
  · exact h.spread _
  · exact h.field _

end Selections

/-- By induction on the levels; where none is left a whole block is skipped. -/
theorem steady_selections (levels : Nat) : Steady (selections levels) := by
  induction levels with
  | zero => exact (steady_skipBlock 1).bind fun _ => .pure _
  | succ levels ih =>
      refine (steady_manyUntil fun first => ?_).bind fun _ => .pure _
      exact (ih.selection first).map some

theorem mem_marks_of_endsVariableType (h : endsVariableType s = true) : s ∈ marks := by
  have hs : s ∈ [")", "=", "$"] := by simpa [endsVariableType] using h
  have hall : ∀ t ∈ [")", "=", "$"], t ∈ marks := by decide
  exact hall s hs

theorem steady_variableDefinition (first : Token) : Steady (variableDefinition first) := by
  refine Steady.ite (.pure none) (steady_take.bind fun name => ?_)
  refine (steady_skip (by decide)).bind fun _ => ?_
  refine (steady_takeUntil fun _ => mem_marks_of_endsVariableType).bind fun type => ?_
  refine (steady_skip (by decide)).bind fun _ => Steady.ite ?_ ?_
  · exact steady_take.bind fun _ => .pure _
  · exact (Steady.pure none).bind fun _ => .pure _

theorem steady_variableDefinitions : Steady variableDefinitions :=
  (steady_skip (by decide)).bind fun _ =>
    Steady.ite (steady_manyUntil steady_variableDefinition) (.pure [])

theorem steady_definition? {rule : Rule Node} (h : definition? t = some rule) : Steady rule := by
  have hb := steady_selections maxNestingDepth
  rw [definition?] at h
  split at h
  · obtain rfl := Option.some.inj h
    refine steady_take.bind fun _ => (steady_skip (by decide)).bind fun _ => ?_
    refine (steady_takeUnless (by decide)).bind fun _ => ?_
    exact hb.selectionSet.bind fun _ => .pure _
  · split at h
    · obtain rfl := Option.some.inj h
      exact hb.bind fun _ => .pure _
    · obtain ⟨type, -, rfl⟩ := Option.map_eq_some_iff.mp h
      refine (steady_takeUnless (by decide)).bind fun _ => ?_
      refine steady_variableDefinitions.bind fun _ => ?_
      exact hb.selectionSet.bind fun _ => .pure _

end Rule

end QueryOutline
