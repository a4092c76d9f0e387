import QueryOutline.Proofs.Grammar.Heads
import QueryOutline.Proofs.Grammar.Provenance
import QueryOutline.Proofs.Token.Spelling

/-!
Letters of a forest. Whatever characters the tokens are made of, the texts of all nodes that
are read from them are made of the same ones, and of the blanks that join the tokens of a
value. Unlike the order of the texts this holds for blank characters too.
-/

namespace QueryOutline

variable {letters : Char → Prop}

/-! Texts. -/

namespace Text

def IsOver (letters : Char → Prop) (s : String) : Prop :=
  ∀ c ∈ s.toList, letters c

theorem isOver_getD {s? : Option String} (h : ∀ s ∈ s?, IsOver letters s) :
    IsOver letters (s?.getD "") := by
  cases s? with
  | none => simp [IsOver]
  | some s => exact h s rfl

theorem isOver_join {texts : List String} (h : ∀ s ∈ texts, IsOver letters s) :
    IsOver letters (String.join texts) := by
  intro c hc
  rw [String.toList_join, List.mem_flatMap] at hc
  obtain ⟨s, hs, hc⟩ := hc
  exact h s hs c hc

theorem isOver_trim {s : String} (h : IsOver letters s) : IsOver letters (trim s) := by
  intro c hc
  rw [trim, String.toList_ofList, trimChars, List.mem_reverse] at hc
  have hend := (List.dropWhile_sublist isBlank).subset hc
  exact h c ((List.dropWhile_sublist isBlank).subset (List.mem_reverse.mp hend))

/-- The value of an argument is made of its tokens and the blanks put between them. -/
theorem isOver_joinValue (hblank : letters ' ') {ts : List Token}
    (h : ∀ t ∈ ts, IsOver letters t) : IsOver letters (joinValue ts) := by
  apply isOver_trim
  apply isOver_join
  fun_induction valuePieces ts with
  | case1 => simp
  | case2 t => simpa using h
  | case3 ts hts ih =>
      rw [List.forall_mem_cons] at h ⊢
      exact ⟨h.1, ih h.2⟩
  | case4 t ts hts _ ih =>
      rw [List.forall_mem_cons] at h ⊢
      refine ⟨h.1, List.forall_mem_cons.mpr ⟨?_, ih h.2⟩⟩
      simpa [IsOver] using hblank

end Text

open Text

/-- All texts of a head that its header can show. -/
def Head.texts (h : Head) : List String :=
  h.name.toList ++ h.aliasName.toList ++ h.typeCondition.toList ++
    h.variableDefinitions.flatMap VariableDefinition.writtenTexts ++
    h.arguments.flatMap Argument.writtenTexts ++ h.directives.flatMap Directive.writtenTexts

def AllOver (letters : Char → Prop) (texts : List String) : Prop :=
  ∀ s ∈ texts, IsOver letters s

theorem allOver_flatMap_iff {α : Type} {texts : α → List String} {as : List α} :
    AllOver letters (as.flatMap texts) ↔ ∀ a ∈ as, AllOver letters (texts a) := by
  simp only [AllOver, List.mem_flatMap, forall_exists_index, and_imp]
  exact ⟨fun h a ha s hs => h s a ha hs, fun h s a ha hs => h a ha s hs⟩

theorem Head.allOver_texts_iff {h : Head} :
    AllOver letters h.texts ↔
      (∀ s ∈ h.name, IsOver letters s) ∧ (∀ s ∈ h.aliasName, IsOver letters s) ∧
      (∀ s ∈ h.typeCondition, IsOver letters s) ∧
      (∀ v ∈ h.variableDefinitions, AllOver letters v.writtenTexts) ∧
      (∀ a ∈ h.arguments, AllOver letters a.writtenTexts) ∧
      ∀ d ∈ h.directives, AllOver letters d.writtenTexts := by
  simp only [← allOver_flatMap_iff]
  simp only [AllOver, Head.texts, List.forall_mem_append, Option.mem_toList, Option.mem_def,
    and_assoc]

namespace Forest

def Over (letters : Char → Prop) (f : Forest Head) : Prop :=
  ∀ h ∈ f.preorder, AllOver letters h.texts

theorem Over.nil : (Forest.nil : Forest Head).Over letters := by
  simp [Over, preorder]

theorem over_cons_iff {h : Head} {below rest : Forest Head} :
    (cons h below rest).Over letters ↔
      AllOver letters h.texts ∧ below.Over letters ∧ rest.Over letters := by
  simp only [Over, preorder, List.forall_mem_cons, List.forall_mem_append]

theorem over_ofList {ns : List Node}
    (h : ∀ n ∈ ns, AllOver letters n.root.texts ∧ n.below.Over letters) :
    (ofList ns).Over letters := by
  induction ns with
  | nil => exact .nil
  | cons n ns ih =>
      obtain ⟨⟨hroot, hbelow⟩, hns⟩ := List.forall_mem_cons.mp h
      exact over_cons_iff.mpr ⟨hroot, hbelow, ih hns⟩

end Forest

/-! Rules. -/

namespace Rule

variable {α β : Type} {r x : Rule α} {f : α → Rule β} {a : α} {P : α → Prop} {Q : β → Prop}

/-- From tokens that are made of the letters, the rule finds something that satisfies the
condition. -/
def YieldsOver (letters : Char → Prop) (P : α → Prop) (r : Rule α) : Prop :=
  ∀ ts, AllOver letters ts → P (r.read ts).result

theorem YieldsOver.pure (h : P a) : YieldsOver letters P (pure a) :=
  fun _ _ => h

/-- What the first rule leaves is made of the letters as well. -/
theorem YieldsOver.bind (hx : YieldsOver letters P x)
    (hf : ∀ a, P a → YieldsOver letters Q (f a)) : YieldsOver letters Q (x >>= f) :=
  fun ts hts => hf _ (hx ts hts) _ fun t ht => hts t ((x.rest_suffix ts).subset ht)

theorem YieldsOver.after (hf : ∀ a, YieldsOver letters Q (f a)) :
    YieldsOver letters Q (x >>= f) :=
  bind (P := fun _ => True) (fun _ _ => trivial) fun a _ => hf a

theorem YieldsOver.map {g : α → β} (h : YieldsOver letters (fun a => Q (g a)) r) :
    YieldsOver letters Q (g <$> r) :=
  h

theorem YieldsOver.ite {c : Prop} [Decidable c] {x y : Rule α} (hx : YieldsOver letters P x)
    (hy : YieldsOver letters P y) : YieldsOver letters P (if c then x else y) := by
  split
  · exact hx
  · exact hy

theorem yieldsOver_take : YieldsOver letters (fun t? => ∀ t ∈ t?, IsOver letters t) take :=
  fun _ hts _ ht => hts _ (List.mem_of_head? ht)

theorem yieldsOver_takeUntil (p : Token → Bool) :
    YieldsOver letters (AllOver letters) (takeUntil p) :=
  fun _ hts t ht => hts t ((List.takeWhile_sublist _).subset ht)

theorem yieldsOver_takeUnless (excluded : List Token) :
    YieldsOver letters (fun t? => ∀ t ∈ t?, IsOver letters t) (takeUnless excluded) := by
  refine YieldsOver.after fun t? => ?_
  cases t? with
  | none => exact .pure (by simp)
  | some t => exact .ite (.pure (by simp)) yieldsOver_take

theorem yieldsOver_value (hblank : letters ' ') :
    YieldsOver letters (IsOver letters) value := by
  intro ts hts
  apply isOver_joinValue hblank
  intro t ht
  exact hts t (splitValue_append 0 ts ▸ List.mem_append_left _ ht)

/-! Loops. -/

/-- Nothing is found between brackets but what the items find. -/
theorem yieldsOver_manyUntil {closing : Token} {item : Token → Rule (Option α)}
    (hi : ∀ t, IsOver letters t → YieldsOver letters (fun a? => ∀ a ∈ a?, P a) (item t)) :
    YieldsOver letters (fun found => ∀ a ∈ found, P a) (manyUntil closing item) := by
  intro ts hts
  rw [read_manyUntil]
  fun_induction readUntil closing item ts with
  | case1 => simp
  | case2 => simp
  | case3 t ts _ found others ih =>
      obtain ⟨ht, hts⟩ := List.forall_mem_cons.mp hts
      refine List.forall_mem_append.mpr ⟨?_, ih fun u hu => ?_⟩
      · simpa using hi t ht ts hts
      · exact hts u (((item t).rest_suffix ts).subset hu)

theorem yieldsOver_manyMarked {marker : Token} (hr : YieldsOver letters P r) :
    YieldsOver letters (fun found => ∀ a ∈ found, P a) (manyMarked marker r) := by
  intro ts hts
  rw [read_manyMarked]
  fun_induction readMarked marker r ts with
  | case1 => simp
  | case2 ts found others ih =>
      have hts := (List.forall_mem_cons.mp hts).2
      refine List.forall_mem_cons.mpr ⟨hr ts hts, ih fun u hu => ?_⟩
      exact hts u ((r.rest_suffix ts).subset hu)
  | case3 => simp

/-! The rules of the grammar. -/

theorem yieldsOver_argument (hblank : letters ' ') {name : Token} (hname : IsOver letters name) :
    YieldsOver letters (fun a? => ∀ a ∈ a?, AllOver letters a.writtenTexts) (argument name) := by
  refine .after fun _ => .ite ?_ (.pure (by simp))
  refine (yieldsOver_value hblank).bind fun v hv => .pure ?_
  simp [AllOver, Argument.writtenTexts, hname, hv]

theorem yieldsOver_arguments (hblank : letters ' ') :
    YieldsOver letters (fun found => ∀ a ∈ found, AllOver letters a.writtenTexts) arguments := by
  refine .after fun _ => .ite ?_ (.pure (by simp))
  exact yieldsOver_manyUntil fun _ => yieldsOver_argument hblank

theorem yieldsOver_directives (hblank : letters ' ') :
    YieldsOver letters (fun found => ∀ d ∈ found, AllOver letters d.writtenTexts) directives := by
  refine yieldsOver_manyMarked ?_
  refine yieldsOver_take.bind fun name hname => (yieldsOver_arguments hblank).bind fun as has => ?_
  exact .pure (List.forall_mem_cons.mpr ⟨isOver_getD hname, allOver_flatMap_iff.mpr has⟩)

theorem yieldsOver_variableDefinition (first : Token) :
    YieldsOver letters (fun v? => ∀ v ∈ v?, AllOver letters v.writtenTexts)
      (variableDefinition first) := by
  refine .ite (.pure (by simp)) ?_
  refine yieldsOver_take.bind fun name hname => .after fun _ => ?_
  refine (yieldsOver_takeUntil _).bind fun type htype => .after fun _ => ?_
  have hname := isOver_getD hname
  have htype := isOver_trim (isOver_join htype)
  have hgiven {d : Option Token} (hd : ∀ t ∈ d, IsOver letters t) :
      YieldsOver letters (fun v? => ∀ v ∈ v?, AllOver letters v.writtenTexts)
        (pure (some (⟨name.getD "", trim (String.join type), d⟩ : VariableDefinition))) := by
    refine .pure ?_
    simpa [AllOver, VariableDefinition.writtenTexts, hname, htype] using hd
  exact .ite (yieldsOver_take.bind fun _ => hgiven) (hgiven (by simp))

theorem yieldsOver_variableDefinitions :
    YieldsOver letters (fun found => ∀ v ∈ found, AllOver letters v.writtenTexts)
      variableDefinitions :=
  .after fun _ => .ite (yieldsOver_manyUntil fun t _ => yieldsOver_variableDefinition t)
    (.pure (by simp))

/-! Heads. -/

/-- The texts of a head are made of the letters, whether or not a selection set follows. -/
def HeadOver (letters : Char → Prop) (found : Head × Bool) : Prop :=
  AllOver letters found.1.texts

theorem yieldsOver_fieldHead (hblank : letters ' ') {first : Option Token}
    (hfirst : ∀ t ∈ first, IsOver letters t) :
    YieldsOver letters (fun h => AllOver letters h.texts) (fieldHead first) := by
  have hrest {aliasName name : Option Token} (ha : ∀ t ∈ aliasName, IsOver letters t)
      (hn : ∀ t ∈ name, IsOver letters t) :
      YieldsOver letters (fun h => AllOver letters h.texts) do
        let arguments ← arguments
        let directives ← directives
        return ({ kind := .field, name := some (name.getD ""), arguments, directives
                  aliasName } : Head) := by
    refine (yieldsOver_arguments hblank).bind fun as has => ?_
    refine (yieldsOver_directives hblank).bind fun ds hds => .pure ?_
    refine Head.allOver_texts_iff.mpr ⟨?_, ha, by simp, by simp, has, hds⟩
    simpa using isOver_getD hn
  refine .after fun aliased => ?_
  cases aliased with
  | false => exact hrest (by simp) hfirst
  | true => exact yieldsOver_take.bind fun name hname => hrest hfirst hname

theorem yieldsOver_inlineFragmentHead :
    YieldsOver letters (fun h => AllOver letters h.texts) inlineFragmentHead := by
  refine yieldsOver_take.bind fun type htype => .pure ?_
  simpa [Head.allOver_texts_iff] using isOver_getD htype

/-- The name of a spread stands behind the dots or is attached to them. -/
theorem yieldsOver_spreadHead {attached : String} (h : IsOver letters attached) :
    YieldsOver letters (HeadOver letters) (spreadHead attached) := by
  refine .ite (.map yieldsOver_inlineFragmentHead) (.ite (.pure ?_) ?_)
  · simpa [HeadOver, Head.allOver_texts_iff] using h
  · refine .after fun _ => .ite (.map yieldsOver_inlineFragmentHead) ?_
    refine .after fun _ => .ite (.pure ?_) (yieldsOver_take.bind fun name hname => .pure ?_)
    · simp [HeadOver, Head.allOver_texts_iff]
    · simpa [HeadOver, Head.allOver_texts_iff] using isOver_getD hname

theorem yieldsOver_selectionHead (hblank : letters ' ') {first : Token}
    (hfirst : IsOver letters first) :
    YieldsOver letters (HeadOver letters) (selectionHead first) := by
  unfold selectionHead
  split
  · next attached h =>
      apply yieldsOver_spreadHead
      unfold attachedWord? at h
      split at h
      · next rest hrest =>
          obtain rfl := Option.some.inj h
          intro c hc
          rw [String.toList_ofList] at hc
          exact hfirst c (by simp [hrest, hc])
      · contradiction
  · exact .map (yieldsOver_fieldHead hblank (by simpa using hfirst))

theorem yieldsOver_definitionHead? {first : Token} {head : Rule Head}
    (h : definitionHead? first = some head) :
    YieldsOver letters (fun h => AllOver letters h.texts) head := by
  rw [definitionHead?] at h
  split at h
  · obtain rfl := Option.some.inj h
    refine yieldsOver_take.bind fun name hname => .after fun _ => ?_
    refine (yieldsOver_takeUnless _).bind fun type htype => .pure ?_
    simpa [Head.allOver_texts_iff, isOver_getD hname] using htype
  · obtain ⟨type, -, rfl⟩ := Option.map_eq_some_iff.mp h
    refine (yieldsOver_takeUnless _).bind fun name hname => ?_
    refine yieldsOver_variableDefinitions.bind fun vs hvs => .pure ?_
    exact Head.allOver_texts_iff.mpr ⟨hname, by simp, by simp, hvs, by simp, by simp⟩

/-! Selections and definitions. -/

/-- The texts of a node and of all below it are made of the letters. -/
def NodeOver (letters : Char → Prop) (n : Node) : Prop :=
  AllOver letters n.root.texts ∧ n.below.Over letters

section Selections

variable {selections : Rule (Forest Head)}

theorem YieldsOver.selectionSet (h : YieldsOver letters (Forest.Over letters) selections) :
    YieldsOver letters (Forest.Over letters) (selectionSet selections) :=
  .after fun _ => .ite h (.pure .nil)

theorem YieldsOver.withBelow {head : Rule (Head × Bool)}
    (hh : YieldsOver letters (HeadOver letters) head)
    (h : YieldsOver letters (Forest.Over letters) selections) :
    YieldsOver letters (NodeOver letters) (withBelow selections head) := by
  refine hh.bind fun found hfound => ?_
  obtain ⟨root, asks⟩ := found
  cases asks with
  | true =>
      refine YieldsOver.bind (x := Rule.selectionSet selections) h.selectionSet ?_
      intro below hbelow
      exact .pure ⟨hfound, hbelow⟩
  | false => exact fun ts _ => ⟨hfound, .nil⟩

end Selections

/-- By induction on the levels: where none is left a block is skipped and gives no texts. -/
theorem yieldsOver_selections (hblank : letters ' ') (levels : Nat) :
    YieldsOver letters (Forest.Over letters) (selections levels) := by
  induction levels with
  | zero => exact .after fun _ => .pure .nil
  | succ levels ih =>
      have hitem (first : Token) (hfirst : IsOver letters first) :
          YieldsOver letters (fun n? => ∀ n ∈ n?, NodeOver letters n)
            (some <$> selection (selections levels) first) := by
        rw [selection_eq]
        apply YieldsOver.map
        simpa using (yieldsOver_selectionHead hblank hfirst).withBelow ih
      exact (yieldsOver_manyUntil hitem).bind fun found hfound =>
        .pure (Forest.over_ofList hfound)

theorem yieldsOver_definition? (hblank : letters ' ') {t : Token} {rule : Rule Node}
    (h : definition? t = some rule) : YieldsOver letters (NodeOver letters) rule := by
  have hbelow := yieldsOver_selections hblank maxNestingDepth
  by_cases ht : t = "\x7b"
  · subst ht
    obtain rfl : bareQuery = rule := Option.some.inj h
    refine hbelow.bind fun below hover => .pure ⟨?_, hover⟩
    simp [Head.allOver_texts_iff]
  · rw [definition?_of_ne ht, Option.map_eq_some_iff] at h
    obtain ⟨head, hhead, rfl⟩ := h
    exact YieldsOver.withBelow (.map (yieldsOver_definitionHead? hhead)) hbelow

end Rule

/-- A forest has no letters that the tokens of its document do not have, apart from blanks. -/
theorem Definitions.over_readFrom (hblank : letters ' ') (position : Nat) {ts : List Token}
    (hts : AllOver letters ts) : (readFrom position ts).forest.Over letters := by
  fun_induction readFrom position ts with
  | case1 => exact .nil
  | case2 position t ts _ others ih => exact ih (List.forall_mem_cons.mp hts).2
  | case3 position t ts rule hd found others ih =>
      have hts := (List.forall_mem_cons.mp hts).2
      obtain ⟨hroot, hbelow⟩ := Rule.yieldsOver_definition? hblank hd ts hts
      refine Forest.over_cons_iff.mpr ⟨hroot, hbelow, ih fun u hu => ?_⟩
      exact hts u ((rule.rest_suffix ts).subset hu)

end QueryOutline
