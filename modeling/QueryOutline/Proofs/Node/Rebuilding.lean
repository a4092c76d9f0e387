import Mathlib.Data.List.Forall2
import QueryOutline.Document
import QueryOutline.Node.Reading
import QueryOutline.Proofs.Node.Filled

/-!
Nodes from their own JSON documents. What is written of a node is data that the node is read
back from, so that nodes with the same document are the same node. The order in which an object
has its members makes no difference to a document.
-/

namespace QueryOutline

namespace Json

mutual

def data : Json → Value
  | null => .null
  | bool b => .bool b
  | int n => .int n
  | text s => .text s
  | list items => .list (dataItems items)
  | object members => .mapping (dataMembers members)

def dataItems : List Json → List Value
  | [] => []
  | j :: js => j.data :: dataItems js

def dataMembers : List (String × Json) → List (Value × Value)
  | [] => []
  | m :: ms => dataMember m :: dataMembers ms

def dataMember : String × Json → Value × Value
  | (key, j) => (.text key, j.data)

end

theorem lookup_dataMembers (ms : List (String × Json)) (key : String) :
    Value.lookup (dataMembers ms) key = (ms.lookup key).map data := by
  induction ms with
  | nil => rfl
  | cons m ms ih =>
      obtain ⟨other, j⟩ := m
      by_cases h : other = key
      · simp [dataMembers, dataMember, Value.lookup, Value.isText, h]
      · have hlookup : Value.lookup (dataMembers ((other, j) :: ms)) key =
            Value.lookup (dataMembers ms) key := by
          simp [dataMembers, dataMember, Value.lookup, Value.isText, h]
        have hne : (key == other) = false := by simpa using Ne.symm h
        rw [hlookup, ih, List.lookup_cons, hne]

/-- The same document, in whatever order objects have their members. Of two members with one
key the first one counts. -/
inductive Agrees : Json → Json → Prop
  | null : Agrees null null
  | bool (b : Bool) : Agrees (bool b) (bool b)
  | int (n : Int) : Agrees (int n) (int n)
  | text (s : String) : Agrees (text s) (text s)
  | list {xs ys : List Json} (hlength : xs.length = ys.length)
      (hitems : ∀ i (hx : i < xs.length) (hy : i < ys.length), Agrees xs[i] ys[i]) :
      Agrees (list xs) (list ys)
  | object {ms ns : List (String × Json)}
      (hkeys : ∀ key, ms.lookup key = none ↔ ns.lookup key = none)
      (hmembers : ∀ key j k, ms.lookup key = some j → ns.lookup key = some k → Agrees j k) :
      Agrees (object ms) (object ns)

theorem sizeOf_lt_of_lookup {ms : List (String × Json)} {key : String} {j : Json}
    (h : ms.lookup key = some j) : sizeOf j < sizeOf ms := by
  induction ms with
  | nil => contradiction
  | cons m ms ih =>
      obtain ⟨other, k⟩ := m
      rw [List.lookup_cons] at h
      split at h
      · obtain rfl := Option.some.inj h
        simp only [List.cons.sizeOf_spec, Prod.mk.sizeOf_spec]
        omega
      · have := ih h
        simp only [List.cons.sizeOf_spec]
        omega

theorem Agrees.refl (j : Json) : j.Agrees j := by
  cases j with
  | null => exact .null
  | bool b => exact .bool b
  | int n => exact .int n
  | text s => exact .text s
  | list items =>
      refine .list rfl fun i hi _ => ?_
      have hlt := List.sizeOf_lt_of_mem (List.getElem_mem hi)
      exact refl items[i]
  | object ms =>
      refine .object (fun _ => Iff.rfl) fun key j k hj hk => ?_
      obtain rfl : j = k := Option.some.inj (hj.symm.trans hk)
      have hlt := sizeOf_lt_of_lookup hj
      exact refl j
termination_by sizeOf j
decreasing_by
  · simp only [list.sizeOf_spec]
    omega
  · simp only [object.sizeOf_spec]
    omega

theorem lookup_textMember (key other : String) (s? : Option String) :
    (textMember key s?).lookup other = if other = key then s?.map .text else none := by
  cases s? with
  | none => exact (ite_self _).symm
  | some s =>
      rw [textMember, List.lookup_cons]
      by_cases h : other = key
      · simp [h]
      · simp [h, beq_eq_false_iff_ne.mpr h]

theorem lookup_listMember (key other : String) (items : List Json) :
    (listMember key items).lookup other =
      if other = key then if items = [] then none else some (.list items) else none := by
  cases items with
  | nil => exact (ite_self _).symm
  | cons j js =>
      rw [listMember, List.isEmpty_cons, if_neg Bool.false_ne_true, List.lookup_cons]
      by_cases h : other = key
      · simp [h]
      · simp [h, beq_eq_false_iff_ne.mpr h]

end Json

open Json Value

/-! Attributes as they are read back. -/

/-- Everything is read back from what is written of it. -/
def Recovers {α : Type} (write : α → Json) (read : Value → Checked α) : Prop :=
  ∀ a, read (write a).data = .ok a

section Attributes

variable {α : Type} {ms : List (String × Json)} {key : String} {read : Value → Checked α}

/-- What is written under a required key is read from there. -/
theorem required_of_lookup {write : α → Json} {a : α} (hread : Recovers write read)
    (h : ms.lookup key = some (write a)) : required (dataMembers ms) key read = .ok a := by
  simp only [required, lookup_dataMembers, h, Option.map_some, hread a, Checked.within]

theorem readNullable_of_ne (absent : α) (read : Value → Checked α) {v : Value} (h : v ≠ .null) :
    readNullable absent read v = read v := by
  cases v with
  | null => contradiction
  | _ => rfl

/-- What is left out is read as absent. -/
theorem nullable_of_lookup_none {absent : α} (h : ms.lookup key = none) :
    nullable (dataMembers ms) key absent read = .ok absent := by
  simp only [nullable, Value.optional, lookup_dataMembers, h, Option.map_none]

theorem nullable_of_lookup_some {write : α → Json} {a? : Option α} (hread : Recovers write read)
    (hnull : ∀ a, (write a).data ≠ .null) (h : ms.lookup key = a?.map write) :
    nullable (dataMembers ms) key none (some <$> read ·) = .ok a? := by
  cases a? with
  | none => exact nullable_of_lookup_none h
  | some a =>
      simp only [nullable, Value.optional, lookup_dataMembers, h, Option.map_some,
        readNullable_of_ne _ _ (hnull a), hread a]
      rfl

theorem ofItems_dataItems {write : α → Json} (hread : Recovers write read) (index : Nat)
    (as : List α) : Checked.ofItems read index (dataItems (as.map write)) = .ok as := by
  induction as generalizing index with
  | nil => rfl
  | cons a as ih =>
      rw [List.map_cons, dataItems, Checked.ofItems, hread a, ih]
      rfl

/-- An empty list is left out, and read as empty again. -/
theorem nullable_of_lookup_list {write : α → Json} {as : List α} (hread : Recovers write read)
    (h : ms.lookup key = if as.map write = [] then none else some (.list (as.map write))) :
    nullable (dataMembers ms) key [] (readList read) = .ok as := by
  cases as with
  | nil => exact nullable_of_lookup_none h
  | cons a as =>
      rw [List.map_cons, if_neg (List.cons_ne_nil _ _), ← List.map_cons] at h
      simp only [nullable, Value.optional, lookup_dataMembers, h, Option.map_some, data,
        readNullable, readList, ofItems_dataItems hread]
      rfl

end Attributes

theorem recovers_text : Recovers .text readText :=
  fun _ => rfl

theorem Kind.recovers : Recovers (fun k => .text (text k)) (readMember ofText?) := by
  intro k
  simp only [data, readMember, ofText?_text]

theorem OperationType.recovers : Recovers (fun t => .text (text t)) (readMember ofText?) := by
  intro t
  simp only [data, readMember, ofText?_text]

theorem Argument.recovers : Recovers toJson (readObject ofEntries) :=
  fun _ => rfl

theorem Directive.recovers : Recovers toJson (readObject ofEntries) := by
  intro d
  have harguments : nullable (dataMembers (("name", .text d.name) ::
      listMember "arguments" (d.arguments.map Argument.toJson))) "arguments" []
        (readList (readObject Argument.ofEntries)) = .ok d.arguments := by
    refine nullable_of_lookup_list Argument.recovers ?_
    simp [List.lookup_cons, lookup_listMember]
  rw [toJson, data, readObject, ofEntries, harguments]
  rfl

theorem VariableDefinition.recovers : Recovers toJson (readObject ofEntries) := by
  intro v
  obtain ⟨name, type, defaultValue⟩ := v
  cases defaultValue <;> rfl

/-- Where the attributes of a node stand in its document. -/
theorem Head.lookup_members (h : Head) (below : List Json) :
    let ms := h.members ++ listMember "children" below
    ms.lookup "kind" = some (.text h.kind.text) ∧
      ms.lookup "name" = h.name.map .text ∧
      ms.lookup "operation_type" = h.operationType.map (.text ·.text) ∧
      ms.lookup "alias" = h.aliasName.map .text ∧
      ms.lookup "type_condition" = h.typeCondition.map .text ∧
      ms.lookup "arguments" = (if h.arguments.map Argument.toJson = [] then none
        else some (.list (h.arguments.map Argument.toJson))) ∧
      ms.lookup "directives" = (if h.directives.map Directive.toJson = [] then none
        else some (.list (h.directives.map Directive.toJson))) ∧
      ms.lookup "variable_definitions" =
        (if h.variableDefinitions.map VariableDefinition.toJson = [] then none
        else some (.list (h.variableDefinitions.map VariableDefinition.toJson))) ∧
      ms.lookup "children" = if below = [] then none else some (.list below) := by
  simp [members, List.lookup_append, List.lookup_cons, lookup_textMember, lookup_listMember,
    Function.comp_def]

/-- A head is read from its own members, and the children beside them are passed over. -/
theorem Head.ofEntries_members (h : Head) (below : List Json) :
    ofEntries (dataMembers (h.members ++ listMember "children" below)) = .ok h := by
  obtain ⟨hkind, hname, htype, halias, hcondition, harguments, hdirectives, hvariables, -⟩ :=
    h.lookup_members below
  have hnull (s : String) : (Json.text s).data ≠ .null := nofun
  rw [ofEntries, required_of_lookup Kind.recovers hkind,
    nullable_of_lookup_some recovers_text hnull hname,
    nullable_of_lookup_some OperationType.recovers (fun t => hnull t.text) htype,
    nullable_of_lookup_some recovers_text hnull halias,
    nullable_of_lookup_some recovers_text hnull hcondition,
    nullable_of_lookup_list Argument.recovers harguments,
    nullable_of_lookup_list Directive.recovers hdirectives,
    nullable_of_lookup_list VariableDefinition.recovers hvariables]
  rfl

namespace Node

theorem childrenOf_eq (entries : List (Value × Value)) :
    childrenOf entries = (Value.lookup entries "children").map fun v =>
      Checked.within (.key "children") (childrenValue v) := by
  induction entries with
  | nil => rfl
  | cons e entries ih =>
      obtain ⟨key, v⟩ := e
      cases hkey : key.isText "children" with
      | true => simp [childrenOf, childrenEntry, Value.lookup, hkey]
      | false =>
          rw [childrenOf, hkey, if_neg Bool.false_ne_true, ih]
          simp [Value.lookup, hkey]

theorem ofValue_members (h : Head) {below : Forest Head}
    (hbelow : forestOfItems 0 (dataItems below.toJson) = .ok below) :
    ofValue (.mapping (dataMembers (h.members ++ listMember "children" below.toJson))) =
      .ok ⟨h, below⟩ := by
  obtain ⟨-, -, -, -, -, -, -, -, hchildren⟩ := h.lookup_members below.toJson
  rw [ofValue, h.ofEntries_members, childrenOf_eq, lookup_dataMembers, hchildren]
  cases below with
  | nil => rfl
  | cons root inside rest =>
      have hne : (Forest.cons root inside rest).toJson ≠ [] := List.cons_ne_nil _ _
      rw [if_neg hne, Option.map_some, Option.map_some, Option.getD_some, data, childrenValue,
        hbelow]
      rfl

/-- By recursion on the forest, as each node is read together with those below it. -/
theorem forestOfItems_toJson (f : Forest Head) (index : Nat) :
    forestOfItems index (dataItems f.toJson) = .ok f := by
  induction f generalizing index with
  | nil => rfl
  | cons root below rest ihb ihr =>
      rw [Forest.toJson, dataItems, data, forestOfItems, ofValue_members root (ihb 0), ihr]
      rfl

theorem recovers : Recovers toJson ofValue := by
  intro n
  rw [toJson, data, ofValue_members n.root (forestOfItems_toJson n.below 0)]

theorem toJson_forest (f : Forest Head) : f.toJson = f.toList.map toJson := by
  induction f with
  | nil => rfl
  | cons root below rest _ ih => rw [Forest.toJson, Forest.toList, List.map_cons, ih, toJson]

theorem filled_toJson (n : Node) : n.toJson.Filled :=
  filledMembers_append.mpr
    ⟨n.root.filled_members, filledMembers_listMember _ (Forest.filled_toJson n.below)⟩

end Node

/-! What is read from documents that agree. -/

/-- Nothing is seen of the order in which objects have their members. -/
def OrderBlind {α : Type} (read : Value → Checked α) : Prop :=
  ∀ j k : Json, j.Agrees k → read j.data = read k.data

section OrderBlind

variable {α : Type} {read : Value → Checked α} {ms ns : List (String × Json)}

/-- Documents that agree have the same keys, and under each of them documents that agree. -/
theorem Json.Agrees.lookup_cases (h : (Json.object ms).Agrees (Json.object ns)) (key : String) :
    (ms.lookup key = none ∧ ns.lookup key = none) ∨
      ∃ j k, ms.lookup key = some j ∧ ns.lookup key = some k ∧ j.Agrees k := by
  obtain _ | _ | _ | _ | _ | ⟨hkeys, hmembers⟩ := h
  cases hj : ms.lookup key with
  | none => exact .inl ⟨rfl, (hkeys key).mp hj⟩
  | some j =>
      cases hk : ns.lookup key with
      | none =>
          rw [(hkeys key).mpr hk] at hj
          contradiction
      | some k => exact .inr ⟨j, k, rfl, rfl, hmembers key j k hj hk⟩

/-- A required member that is missing in the one document is missing in the other. -/
theorem OrderBlind.required (hread : OrderBlind read) (h : (object ms).Agrees (object ns))
    (key : String) :
    Value.required (dataMembers ms) key read = Value.required (dataMembers ns) key read := by
  simp only [Value.required, lookup_dataMembers]
  obtain ⟨hms, hns⟩ | ⟨j, k, hms, hns, hjk⟩ := h.lookup_cases key
  · rw [hms, hns]
  · simp only [hms, hns, Option.map_some, hread j k hjk]

theorem OrderBlind.nullable (hread : OrderBlind read) (h : (object ms).Agrees (object ns))
    (key : String) (absent : α) :
    Value.nullable (dataMembers ms) key absent read =
      Value.nullable (dataMembers ns) key absent read := by
  simp only [Value.nullable, Value.optional, lookup_dataMembers]
  obtain ⟨hms, hns⟩ | ⟨j, k, hms, hns, hjk⟩ := h.lookup_cases key
  · rw [hms, hns]
  · have hnullable : readNullable absent read j.data = readNullable absent read k.data := by
      have hsame := hread j k hjk
      cases hjk with
      | null => rfl
      | _ => exact hsame
    simp only [hms, hns, Option.map_some, hnullable]

theorem OrderBlind.map {β : Type} (f : α → β) (hread : OrderBlind read) :
    OrderBlind fun v => f <$> read v :=
  fun j k h => congrArg (f <$> ·) (hread j k h)

theorem ofItems_eq_of_forall₂ (index : Nat) {xs ys : List Json}
    (h : List.Forall₂ (fun j k => read j.data = read k.data) xs ys) :
    Checked.ofItems read index (dataItems xs) = Checked.ofItems read index (dataItems ys) := by
  induction h generalizing index with
  | nil => rfl
  | cons hfirst _ ih => rw [dataItems, dataItems, Checked.ofItems, Checked.ofItems, hfirst, ih]

theorem OrderBlind.readList (hread : OrderBlind read) : OrderBlind (Value.readList read) := by
  intro j k h
  cases h with
  | list hlength hitems =>
      refine ofItems_eq_of_forall₂ 0 (List.forall₂_iff_get.mpr ⟨hlength, fun i hx hy => ?_⟩)
      exact hread _ _ (hitems i hx hy)
  | _ => rfl

theorem orderBlind_readObject {read : List (Value × Value) → Checked α}
    (h : ∀ ms ns, (object ms).Agrees (object ns) → read (dataMembers ms) = read (dataMembers ns)) :
    OrderBlind (readObject read) := by
  intro j k hjk
  cases hjk with
  | object hkeys hmembers => exact h _ _ (.object hkeys hmembers)
  | _ => rfl

theorem orderBlind_readText : OrderBlind readText := by
  intro j k h
  cases h <;> rfl

theorem orderBlind_readMember (ofText? : String → Option α) : OrderBlind (readMember ofText?) := by
  intro j k h
  cases h <;> rfl

end OrderBlind

theorem Argument.orderBlind : OrderBlind (readObject ofEntries) := by
  refine orderBlind_readObject fun ms ns h => ?_
  simp only [ofEntries, orderBlind_readText.required h]

theorem Directive.orderBlind : OrderBlind (readObject ofEntries) := by
  refine orderBlind_readObject fun ms ns h => ?_
  simp only [ofEntries, orderBlind_readText.required h, Argument.orderBlind.readList.nullable h]

theorem VariableDefinition.orderBlind : OrderBlind (readObject ofEntries) := by
  refine orderBlind_readObject fun ms ns h => ?_
  simp only [ofEntries, orderBlind_readText.required h, (orderBlind_readText.map some).nullable h]

theorem Head.ofEntries_eq_of_agrees {ms ns : List (String × Json)}
    (h : (object ms).Agrees (object ns)) :
    ofEntries (dataMembers ms) = ofEntries (dataMembers ns) := by
  simp only [ofEntries, (orderBlind_readMember Kind.ofText?).required h,
    (orderBlind_readText.map some).nullable h,
    ((orderBlind_readMember OperationType.ofText?).map some).nullable h,
    Argument.orderBlind.readList.nullable h, Directive.orderBlind.readList.nullable h,
    VariableDefinition.orderBlind.readList.nullable h]

namespace Node

theorem forestOfItems_eq_of_forall₂ (index : Nat) {xs ys : List Json}
    (h : List.Forall₂ (fun j k => ofValue j.data = ofValue k.data) xs ys) :
    forestOfItems index (dataItems xs) = forestOfItems index (dataItems ys) := by
  induction h generalizing index with
  | nil => rfl
  | cons hfirst _ ih => rw [dataItems, dataItems, forestOfItems, forestOfItems, hfirst, ih]

/-- The second part is for the list of children, which is no node. -/
theorem ofValue_eq_of_agrees {j k : Json} (h : j.Agrees k) :
    ofValue j.data = ofValue k.data ∧ childrenValue j.data = childrenValue k.data := by
  induction h with
  | null | bool _ | int _ | text _ => exact ⟨rfl, rfl⟩
  | list hlength hitems ih =>
      refine ⟨rfl, ?_⟩
      refine forestOfItems_eq_of_forall₂ 0 (List.forall₂_iff_get.mpr ⟨hlength, fun i hx hy => ?_⟩)
      exact (ih i hx hy).1
  | @object ms ns hkeys hmembers ih =>
      have hsame : (object ms).Agrees (object ns) := .object hkeys hmembers
      refine ⟨?_, rfl⟩
      simp only [data, ofValue, Head.ofEntries_eq_of_agrees hsame, childrenOf_eq,
        lookup_dataMembers]
      obtain ⟨hms, hns⟩ | ⟨j, k, hms, hns, -⟩ := hsame.lookup_cases "children"
      · rw [hms, hns]
      · simp only [hms, hns, Option.map_some, (ih "children" j k hms hns).2]

theorem orderBlind : OrderBlind ofValue :=
  fun _ _ h => (ofValue_eq_of_agrees h).1

/-- Nodes that are written alike, up to the order of keys, are the same node. -/
theorem toJson_agrees_iff {n m : Node} : n.toJson.Agrees m.toJson ↔ n = m := by
  refine ⟨fun h => ?_, fun h => h ▸ Agrees.refl n.toJson⟩
  have hsame : Checked.ok n = Checked.ok m := by
    rw [← recovers n, ← recovers m, orderBlind _ _ h]
  exact Checked.ok.inj hsame

end Node

/-- Whatever a node was read from, its own document holds something everywhere and is data that
the node is read from. Two nodes are the same just in case their documents are. So the forest
in the document of a parsed text gives back every definition of the text. -/
theorem Node.rebuilt :
    (∀ (v : Value) (n : Node), ofValue v = .ok n →
      n.toJson.Filled ∧ ofValue n.toJson.data = .ok n ∧
        ∀ (w : Value) (m : Node), ofValue w = .ok m → (n = m ↔ n.toJson.Agrees m.toJson)) ∧
    ∀ text : String, ∃ members items, (Document.parse text).toJson = .object members ∧
      members.lookup "forest" = some (.list items) ∧
      items.map (fun j => ofValue j.data) = (Document.parse text).forest.toList.map .ok := by
  refine ⟨fun v n _ => ⟨n.filled_toJson, recovers n, fun w m _ => toJson_agrees_iff.symm⟩, ?_⟩
  intro text
  refine ⟨_, (Document.parse text).forest.toJson, rfl, rfl, ?_⟩
  rw [toJson_forest, List.map_map]
  exact List.map_congr_left fun n _ => recovers n

/-- An empty list of children is as good as none. -/
theorem Node.rebuilt_emptyChildren :
    let v : Value := .mapping [(.text "children", .list []), (.text "kind", .text "field"),
      (.text "name", .text "id")]
    let w : Value := .mapping [(.text "kind", .text "field"), (.text "name", .text "id")]
    let n : Node := ⟨{ kind := .field, name := some "id" }, .nil⟩
    ofValue v = .ok n ∧ ofValue w = .ok n ∧ n.toJson.Filled ∧ ofValue n.toJson.data = .ok n ∧
      n.toJson.Agrees n.toJson := by
  intro v w n
  have hv : ofValue v = .ok n := by rfl
  have hw : ofValue w = .ok n := by rfl
  obtain ⟨hfilled, hdata, hagrees⟩ := rebuilt.1 v n hv
  exact ⟨hv, hw, hfilled, hdata, (hagrees w n hw).mp rfl⟩

end QueryOutline
