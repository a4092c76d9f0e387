import QueryOutline.Node.Json

/-!
Written nodes hold something everywhere. An attribute that a node does not have is left out
of its JSON document, and so is a list with nothing in it. This is about all nodes, not only
about those of a parsed document.
-/

namespace QueryOutline

namespace Json

mutual

/-- There is no null and no empty list, at any depth. -/
def Filled : Json → Prop
  | null => False
  | bool _ | int _ | text _ => True
  | list items => items ≠ [] ∧ FilledItems items
  | object members => FilledMembers members

def FilledItems : List Json → Prop
  | [] => True
  | j :: js => Filled j ∧ FilledItems js

def FilledMembers : List (String × Json) → Prop
  | [] => True
  | m :: ms => FilledMember m ∧ FilledMembers ms

def FilledMember : String × Json → Prop
  | (_, j) => Filled j

end

theorem filledItems_iff {js : List Json} : FilledItems js ↔ ∀ j ∈ js, j.Filled := by
  induction js with
  | nil => simp [FilledItems]
  | cons j js ih => simp [FilledItems, ih]

theorem filledMembers_iff {ms : List (String × Json)} :
    FilledMembers ms ↔ ∀ m ∈ ms, m.2.Filled := by
  induction ms with
  | nil => simp [FilledMembers]
  | cons m ms ih =>
      obtain ⟨key, j⟩ := m
      rw [FilledMembers, ih, List.forall_mem_cons]
      rfl

theorem filledMembers_append {ms ns : List (String × Json)} :
    FilledMembers (ms ++ ns) ↔ FilledMembers ms ∧ FilledMembers ns := by
  simp only [filledMembers_iff, List.forall_mem_append]

theorem filledMembers_textMember (key : String) (s : Option String) :
    FilledMembers (textMember key s) := by
  cases s with
  | none => trivial
  | some s => exact ⟨trivial, trivial⟩

/-- An empty list makes no member at all. -/
theorem filledMembers_listMember (key : String) {items : List Json}
    (h : ∀ j ∈ items, j.Filled) : FilledMembers (listMember key items) := by
  cases items with
  | nil => trivial
  | cons j js => exact ⟨⟨List.cons_ne_nil j js, filledItems_iff.mpr h⟩, trivial⟩

end Json

open Json

theorem Argument.filled_toJson (a : Argument) : a.toJson.Filled :=
  ⟨trivial, trivial, trivial⟩

theorem Directive.filled_toJson (d : Directive) : d.toJson.Filled := by
  refine ⟨trivial, filledMembers_listMember _ ?_⟩
  exact List.forall_mem_map.mpr fun a _ => a.filled_toJson

theorem VariableDefinition.filled_toJson (v : VariableDefinition) : v.toJson.Filled :=
  ⟨trivial, trivial, filledMembers_textMember _ _⟩

/-- Of a head only what there is is written. -/
theorem Head.filled_members (h : Head) : FilledMembers h.members := by
  refine ⟨trivial, ?_⟩
  simp only [filledMembers_append, filledMembers_textMember, true_and]
  refine ⟨⟨?_, ?_⟩, ?_⟩
  · exact filledMembers_listMember _ (List.forall_mem_map.mpr fun a _ => a.filled_toJson)
  · exact filledMembers_listMember _ (List.forall_mem_map.mpr fun d _ => d.filled_toJson)
  · exact filledMembers_listMember _ (List.forall_mem_map.mpr fun v _ => v.filled_toJson)

/-- By recursion on the forest; a node without children is written without a list of them. -/
theorem Forest.filled_toJson (f : Forest Head) : ∀ j ∈ f.toJson, j.Filled := by
  induction f with
  | nil => simp [Forest.toJson]
  | cons h below rest ihb ihr =>
      refine List.forall_mem_cons.mpr ⟨?_, ihr⟩
      exact filledMembers_append.mpr ⟨h.filled_members, filledMembers_listMember _ ihb⟩

end QueryOutline
