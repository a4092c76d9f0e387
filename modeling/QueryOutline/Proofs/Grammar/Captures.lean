import QueryOutline.Document
import QueryOutline.Proofs.Grammar.Heads
import QueryOutline.Proofs.Token.EndState
import QueryOutline.Proofs.Token.Spelling

/-!
Values of arguments. A value is read behind a name and a colon, and only its joined text is
kept. The text tells its tokens apart as the document did, so nothing but the spacing is
lost, unless a literal that is never closed is among them: it could take up what is joined
to it.
-/

namespace QueryOutline

open Token

/-! Joined tokens of a document. -/

/-- The blanks that join the tokens of a value keep them apart. -/
theorem tokenize_joinValue {ts : List Token} (h : ∀ t ∈ ts, IsComplete t) :
    tokenize (joinValue ts) = ts :=
  (spells_joinValue h).tokens

/-- The tokens stand next to each other in the text, and none of them is an open literal. -/
structure IsSlice (ts : List Token) (text : String) : Prop where
  infix_tokenize : ts <:+: tokenize text
  closed : ∀ t ∈ ts, isUnterminated t = false

theorem IsSlice.isComplete {ts : List Token} {text : String} (h : IsSlice ts text) :
    ∀ t ∈ ts, IsComplete t := by
  intro t ht
  exact isComplete_of_mem_tokenize (h.infix_tokenize.subset ht) (h.closed t ht)

/-! Values that have been read. -/

/-- A value with its name in front and the tokens that are left behind it. -/
structure Capture where
  name : Token
  tokens : List Token
  behind : List Token
  deriving DecidableEq, Repr

namespace Capture

def argument (c : Capture) : Argument :=
  ⟨c.name, joinValue c.tokens⟩

def ahead (c : Capture) : List Token :=
  c.name :: ":" :: (c.tokens ++ c.behind)

/-- The value ends where the rule for values ends it. -/
def IsRead (c : Capture) : Prop :=
  Rule.valueTokens.read (c.tokens ++ c.behind) = ⟨c.tokens, c.behind⟩

end Capture

/-- Values that are read from the tokens, each behind the one before it, until other tokens
are left. -/
inductive Captured : List Token → List Capture → List Token → Prop where
  | nothing {ts rest : List Token} (h : rest <:+ ts) : Captured ts [] rest
  | value {ts rest : List Token} {c : Capture} {cs : List Capture} (ha : c.ahead <:+ ts)
      (hr : c.IsRead) (h : Captured c.behind cs rest) : Captured ts (c :: cs) rest

namespace Captured

variable {ts us rest : List Token} {cs ds : List Capture}

theorem of_suffix (h : Captured us cs rest) (hs : us <:+ ts) : Captured ts cs rest := by
  cases h with
  | nothing h => exact .nothing (h.trans hs)
  | value ha hr h => exact .value (ha.trans hs) hr h

theorem append (h : Captured ts cs us) (h' : Captured us ds rest) :
    Captured ts (cs ++ ds) rest := by
  induction h with
  | nothing hs => exact h'.of_suffix hs
  | value ha hr _ ih => exact .value ha hr (ih h')

/-- What has been captured stands in the tokens as it is. -/
theorem tokens_infix (h : Captured ts cs rest) : ∀ c ∈ cs, c.tokens <:+: ts := by
  induction h with
  | nothing => simp
  | @value ts rest c cs ha _ _ ih =>
      have hc : c.tokens <:+: c.ahead := ⟨[c.name, ":"], c.behind, by simp [Capture.ahead]⟩
      have hbehind : c.behind <:+ c.ahead := ⟨c.name :: ":" :: c.tokens, by simp [Capture.ahead]⟩
      intro d hd
      rcases List.mem_cons.mp hd with rfl | hd
      · exact hc.trans ha.isInfix
      · exact (ih d hd).trans (hbehind.trans ha).isInfix

end Captured

/-! The arguments of a node, in the order of reading. -/

def Head.givenArguments (h : Head) : List Argument :=
  h.arguments ++ h.directives.flatMap Directive.arguments

def Forest.givenArguments (f : Forest Head) : List Argument :=
  f.preorder.flatMap Head.givenArguments

def Tree.givenArguments (n : Tree Head) : List Argument :=
  n.preorder.flatMap Head.givenArguments

theorem Forest.givenArguments_cons (root : Head) (below rest : Forest Head) :
    (Forest.cons root below rest).givenArguments =
      (Tree.mk root below).givenArguments ++ rest.givenArguments := by
  simp [Forest.givenArguments, Tree.givenArguments, Forest.preorder, Tree.preorder]

theorem Forest.givenArguments_ofList (ns : List Node) :
    (Forest.ofList ns).givenArguments = ns.flatMap Tree.givenArguments := by
  induction ns with
  | nil => rfl
  | cons n ns ih => rw [Forest.ofList, Forest.givenArguments_cons, ih, List.flatMap_cons]

/-! Rules. -/

namespace Rule

variable {α β : Type} {r x : Rule α} {f : α → Rule β} {a : α} {held : List Argument}
  {given : α → List Argument} {more : β → List Argument}

/-- With some arguments held already, those of what a rule finds are these and the values
that it has read. -/
def Captures (held : List Argument) (given : α → List Argument) (r : Rule α) : Prop :=
  ∀ ts, ∃ cs, given (r.read ts).result = held ++ cs.map Capture.argument ∧
    Captured ts cs (r.read ts).rest

theorem Captures.pure (h : given a = held) : Captures held given (pure a) := by
  intro ts
  exact ⟨[], by simpa using h, .nothing (List.suffix_refl ts)⟩

theorem Captures.bind (hx : Captures held given x) (hf : ∀ a, Captures (given a) more (f a)) :
    Captures held more (x >>= f) := by
  intro ts
  obtain ⟨cs, hcs, hc⟩ := hx ts
  obtain ⟨ds, hds, hd⟩ := hf (x.read ts).result (x.read ts).rest
  refine ⟨cs ++ ds, ?_, hc.append hd⟩
  rw [read_bind, hds, hcs, List.map_append, List.append_assoc]

/-- A rule does not touch what is held. -/
theorem Captures.hold (h : Captures [] given x) (held : List Argument) :
    Captures held (fun a => held ++ given a) x := by
  intro ts
  obtain ⟨cs, hcs, hc⟩ := h ts
  exact ⟨cs, congrArg (held ++ ·) hcs, hc⟩

theorem Captures.andThen (hx : Captures [] given x)
    (hf : ∀ a, Captures (held ++ given a) more (f a)) : Captures held more (x >>= f) :=
  (hx.hold held).bind hf

theorem Captures.map {g : α → β} (h : Captures held (fun a => more (g a)) r) :
    Captures held more (g <$> r) :=
  h

theorem Captures.ite {c : Prop} [Decidable c] {x y : Rule α} (hx : Captures held given x)
    (hy : Captures held given y) : Captures held given (if c then x else y) := by
  split
  · exact hx
  · exact hy

/-- A rule of which nothing is kept. -/
theorem captures_nothing (r : Rule α) : Captures [] (fun _ => []) r := by
  intro ts
  exact ⟨[], rfl, .nothing (r.rest_suffix ts)⟩

/-! Loops. -/

theorem captures_manyUntil {closing : Token} {item : Token → Rule (Option α)}
    (hi : ∀ t ts, ∃ cs, ((item t).read ts).result.toList.flatMap given =
      cs.map Capture.argument ∧ Captured (t :: ts) cs ((item t).read ts).rest) :
    Captures [] (fun found => found.flatMap given) (manyUntil closing item) := by
  intro ts
  rw [read_manyUntil]
  fun_induction readUntil closing item ts with
  | case1 => exact ⟨[], rfl, .nothing (List.suffix_refl _)⟩
  | case2 ts => exact ⟨[], rfl, .nothing (List.suffix_cons _ _)⟩
  | case3 t ts _ found others ih =>
      obtain ⟨cs, hcs, hc⟩ := hi t ts
      obtain ⟨ds, hds, hd⟩ := ih
      refine ⟨cs ++ ds, ?_, hc.append hd⟩
      simp only [List.nil_append, List.flatMap_append, List.map_append] at hcs hds ⊢
      rw [← hcs, ← hds]

theorem captures_manyMarked {marker : Token} (hr : Captures [] given r) :
    Captures [] (fun found => found.flatMap given) (manyMarked marker r) := by
  intro ts
  rw [read_manyMarked]
  fun_induction readMarked marker r ts with
  | case1 => exact ⟨[], rfl, .nothing (List.suffix_refl _)⟩
  | case2 ts found others ih =>
      obtain ⟨cs, hcs, hc⟩ := hr ts
      obtain ⟨ds, hds, hd⟩ := ih
      refine ⟨cs ++ ds, ?_, (hc.of_suffix (List.suffix_cons _ _)).append hd⟩
      simp only [List.nil_append, List.flatMap_cons, List.map_append] at hcs hds ⊢
      rw [← hcs, ← hds]
  | case3 => exact ⟨[], rfl, .nothing (List.suffix_refl _)⟩

/-! The rules of the grammar. -/

/-- The one place where values are read. -/
theorem captured_argument (name : Token) (ts : List Token) :
    ∃ cs, ((argument name).read ts).result.toList = cs.map Capture.argument ∧
      Captured (name :: ts) cs ((argument name).read ts).rest := by
  by_cases hts : ts.head? = some ":"
  · obtain ⟨us, rfl⟩ := List.head?_eq_some_iff.mp hts
    have hsplit := splitValue_append 0 us
    refine ⟨[⟨name, (splitValue 0 us).1, (splitValue 0 us).2⟩], ?_, .value ?_ ?_ ?_⟩
    · rw [argument, read_bind, read_skip_cons_self]
      rfl
    · rw [Capture.ahead, hsplit]
    · rw [Capture.IsRead, hsplit]
      rfl
    · rw [argument, read_bind, read_skip_cons_self]
      exact .nothing (List.suffix_refl _)
  · rw [argument, read_bind, read_skip_of_ne hts]
    exact ⟨[], rfl, .nothing (List.suffix_cons name ts)⟩

theorem captures_arguments : Captures [] (fun found => found) arguments := by
  have hmany : Captures [] (fun found => found.flatMap fun a => [a])
      (manyUntil ")" argument) :=
    captures_manyUntil fun name ts => by simpa using captured_argument name ts
  refine (captures_nothing _).andThen fun _ => Captures.ite ?_ (.pure rfl)
  simpa using hmany

theorem captures_directives :
    Captures [] (fun found => found.flatMap Directive.arguments) directives := by
  refine captures_manyMarked ((captures_nothing take).andThen fun name => ?_)
  exact captures_arguments.andThen fun _ => .pure rfl

theorem captures_fieldHead (first : Option Token) :
    Captures [] Head.givenArguments (fieldHead first) := by
  refine (captures_nothing _).andThen fun _ => Captures.ite ?_ ?_
  all_goals
    refine (captures_nothing _).andThen fun name => ?_
    refine captures_arguments.andThen fun _ => captures_directives.andThen fun _ => ?_
    exact .pure rfl

theorem captures_spreadHead (attached : String) :
    Captures [] (fun found => found.1.givenArguments) (spreadHead attached) := by
  have hinline : Captures [] Head.givenArguments inlineFragmentHead :=
    (captures_nothing _).andThen fun _ => .pure rfl
  refine Captures.ite hinline.map (Captures.ite (.pure rfl) ?_)
  refine (captures_nothing _).andThen fun _ => Captures.ite hinline.map ?_
  refine (captures_nothing _).andThen fun _ => Captures.ite (.pure rfl) ?_
  exact (captures_nothing _).andThen fun _ => .pure rfl

theorem captures_selectionHead (first : Token) :
    Captures [] (fun found => found.1.givenArguments) (selectionHead first) := by
  unfold selectionHead
  split
  · exact captures_spreadHead _
  · exact (captures_fieldHead (some first)).map

section Selections

variable {selections : Rule (Forest Head)}

/-- A node gives its own arguments before those of the nodes below it. -/
theorem Captures.withBelow {head : Rule (Head × Bool)}
    (h : Captures [] Forest.givenArguments selections)
    (hh : Captures [] (fun found => found.1.givenArguments) head) :
    Captures [] Tree.givenArguments (withBelow selections head) := by
  have hset : Captures [] Forest.givenArguments (selectionSet selections) :=
    (captures_nothing _).andThen fun _ => Captures.ite h (.pure rfl)
  have hnil : Captures [] Forest.givenArguments (Pure.pure .nil) := .pure rfl
  refine hh.andThen fun ⟨root, asks⟩ => Captures.ite ?_ ?_
  · exact hset.andThen fun _ => .pure rfl
  · exact hnil.andThen fun _ => .pure rfl

theorem Captures.selection (h : Captures [] Forest.givenArguments selections) (first : Token) :
    Captures [] Tree.givenArguments (selection selections first) := by
  rw [selection_eq]
  exact h.withBelow (captures_selectionHead first)

end Selections

theorem captures_selections (levels : Nat) :
    Captures [] Forest.givenArguments (selections levels) := by
  induction levels with
  | zero => exact (captures_nothing _).andThen fun _ => .pure rfl
  | succ levels ih =>
      have hmany : Captures [] (fun found => found.flatMap Tree.givenArguments)
          (manyUntil "\x7d" fun first => some <$> Rule.selection (selections levels) first) := by
        refine captures_manyUntil fun first ts => ?_
        obtain ⟨cs, hcs, hc⟩ := ih.selection first ts
        exact ⟨cs, by simpa using hcs, hc.of_suffix (List.suffix_cons first ts)⟩
      exact hmany.andThen fun found => .pure (Forest.givenArguments_ofList found)

/-- Only selections have arguments. -/
theorem captures_definitionHead? {t : Token} {head : Rule Head}
    (h : definitionHead? t = some head) : Captures [] Head.givenArguments head := by
  rw [definitionHead?] at h
  split at h
  · obtain rfl := Option.some.inj h
    refine (captures_nothing _).andThen fun _ => (captures_nothing _).andThen fun _ => ?_
    exact (captures_nothing _).andThen fun _ => .pure rfl
  · obtain ⟨type, -, rfl⟩ := Option.map_eq_some_iff.mp h
    refine (captures_nothing _).andThen fun _ => (captures_nothing _).andThen fun _ => ?_
    exact .pure rfl

theorem captures_definition? {t : Token} {rule : Rule Node} (h : definition? t = some rule) :
    Captures [] Tree.givenArguments rule := by
  have hb := captures_selections maxNestingDepth
  by_cases ht : t = "\x7b"
  · subst ht
    obtain rfl : bareQuery = rule := Option.some.inj h
    exact hb.andThen fun _ => .pure rfl
  · rw [definition?_of_ne ht, Option.map_eq_some_iff] at h
    obtain ⟨head, hhead, rfl⟩ := h
    exact hb.withBelow (captures_definitionHead? hhead).map

end Rule

/-- Every argument of a forest is captured, in the order of the forest. -/
theorem Definitions.captured_readFrom (position : Nat) (ts : List Token) :
    ∃ cs, (readFrom position ts).forest.givenArguments = cs.map Capture.argument ∧
      Captured ts cs [] := by
  fun_induction readFrom position ts with
  | case1 => exact ⟨[], rfl, .nothing (List.suffix_refl _)⟩
  | case2 position t ts _ others ih =>
      obtain ⟨cs, hcs, hc⟩ := ih
      exact ⟨cs, hcs, hc.of_suffix (List.suffix_cons t ts)⟩
  | case3 position t ts rule hd found others ih =>
      obtain ⟨cs, hcs, hc⟩ := Rule.captures_definition? hd ts
      obtain ⟨ds, hds, hd⟩ := ih
      refine ⟨cs ++ ds, ?_, (hc.of_suffix (List.suffix_cons t ts)).append hd⟩
      rw [Forest.givenArguments_cons, List.map_append, ← hds]
      exact congrArg (· ++ _) hcs

/-- Joined tokens of a document are told apart again, so that a joined text stands for its
tokens; what the rule for values reads anywhere in the document is kept whole, and the
arguments of a parsed document are values that this rule has read, each in its place. -/
theorem Document.tokenize_value_eq (text : String) :
    (∀ ts, IsSlice ts text → tokenize (joinValue ts) = ts) ∧
      (∀ other ts us, IsSlice ts text → IsSlice us other → joinValue ts = joinValue us →
        ts = us) ∧
      (∀ rest, rest <:+ tokenize text →
        (∀ t ∈ (Rule.valueTokens.read rest).result, isUnterminated t = false) →
        tokenize (Rule.value.read rest).result = (Rule.valueTokens.read rest).result) ∧
      ∃ cs, (Document.parse text).forest.givenArguments = cs.map Capture.argument ∧
        Captured (tokenize text) cs [] ∧
        ∀ c ∈ cs, (∀ t ∈ c.tokens, isUnterminated t = false) →
          tokenize c.argument.value = c.tokens := by
  have hslice {text : String} {ts : List Token} (h : IsSlice ts text) :
      tokenize (joinValue ts) = ts := tokenize_joinValue h.isComplete
  refine ⟨fun ts h => hslice h, ?_, ?_, ?_⟩
  · intro other ts us ht hu heq
    rw [← hslice ht, heq, hslice hu]
  · intro rest hrest hclosed
    have hread : (Rule.valueTokens.read rest).result <+: rest :=
      ⟨(splitValue 0 rest).2, splitValue_append 0 rest⟩
    exact hslice ⟨hread.isInfix.trans hrest.isInfix, hclosed⟩
  · obtain ⟨cs, hcs, hc⟩ := Definitions.captured_readFrom 0 (tokenize text)
    refine ⟨cs, hcs, hc, fun c hmem hclosed => ?_⟩
    exact hslice ⟨hc.tokens_infix c hmem, hclosed⟩

/-- A list, with a sign that goes with the name behind it. -/
theorem Document.tokenize_value_eq_list :
    let text := "\x7b a(ids: [1,$x]) \x7d"
    let value := ["[", "1", "$", "x", "]"]
    IsSlice value text ∧ joinValue value = "[ 1 $x ]" ∧ tokenize "[ 1 $x ]" = value ∧
      (Rule.valueTokens.read (value ++ [")", "\x7d"])).result = value ∧
      tokenize (Rule.value.read (value ++ [")", "\x7d"])).result = value := by
  intro text value
  obtain ⟨hslices, -, hvalues, -⟩ := tokenize_value_eq text
  have hslice : IsSlice value text :=
    ⟨⟨["\x7b", "a", "(", "ids", ":"], [")", "\x7d"], by decide +kernel⟩, by decide⟩
  have hjoined : joinValue value = "[ 1 $x ]" := by decide +kernel
  have hread : (Rule.valueTokens.read (value ++ [")", "\x7d"])).result = value := by
    decide +kernel
  have hsuffix : value ++ [")", "\x7d"] <:+ tokenize text :=
    ⟨["\x7b", "a", "(", "ids", ":"], by decide +kernel⟩
  refine ⟨hslice, hjoined, ?_, hread, ?_⟩
  · rw [← hjoined, hslices value hslice]
  · rw [hvalues _ hsuffix (by rw [hread]; exact hslice.closed), hread]

end QueryOutline
