import Mathlib.Data.List.Chain
import QueryOutline.Proofs.Display.Branches
import QueryOutline.Proofs.Outline.Visible

/-!
Parents in the tree layout. Where a row stands in the tree is told by the depths alone, for
each row takes the next path behind the row before. The rows of a document come to stand at
their own paths in this way. Other rows hang under the nearest earlier row of smaller
depth, as long as no depth is skipped.
-/

namespace QueryOutline

namespace Path

def run (last : Path) : List Nat → List Path
  | [] => []
  | d :: ds => last.next d :: run (last.next d) ds

@[simp] theorem length_run (last : Path) (ds : List Nat) : (last.run ds).length = ds.length := by
  induction ds generalizing last with
  | nil => rfl
  | cons d ds ih => simp [run, ih]

theorem next_append_cons (above : Path) (i : Nat) (path : Path) :
    next (above ++ i :: path) above.length = above ++ [i + 1] := by
  simp [next]

theorem next_length (path : Path) : path.next path.length = path ++ [0] := by
  simp [next]

theorem length_next {last : Path} {depth : Nat} (h : depth ≤ last.length) :
    (last.next depth).length = depth + 1 := by
  simp [next, h]

/-- A row leaves the way down to its depth as it is. -/
theorem take_next {last : Path} {depth k : Nat} (h : depth ≤ last.length) (hk : k ≤ depth) :
    (last.next depth).take k = last.take k := by
  have hlength : k ≤ (last.take depth).length := by
    rw [List.length_take]
    omega
  rw [next, List.take_append_of_le_length hlength, List.take_take, Nat.min_eq_left hk]

end Path

namespace Forest

variable {α : Type}

theorem map_snd_located (f : Forest α) (above : Path) (index : Nat) :
    (f.located above index).map Prod.snd = f.preorder := by
  induction f generalizing above index with
  | nil => rfl
  | cons a below rest ihb ihr => simp [located, preorder, ihb, ihr]

def places (f : Forest α) : List Path :=
  (f.located [] 0).map Prod.fst

end Forest

namespace Layout

/-- Of nodes at the given places, the one with a number hangs on the one with another
number, or on the label above the roots. -/
def HangsOn (places : List Path) (i : Nat) : Option Nat → Prop
  | none => ∃ k, places[i]? = some [k]
  | some j => ∃ path k, places[j]? = some path ∧ places[i]? = some (path ++ [k])

/-- Among depths, the nearest that is smaller and stands in front of the one with a number,
if there is any. -/
def IsNearest (ds : List Nat) (i d : Nat) : Option Nat → Prop
  | none => ∀ j e, j < i → ds[j]? = some e → d ≤ e
  | some j => j < i ∧ (∃ e, ds[j]? = some e ∧ e < d) ∧
      ∀ k e, j < k → k < i → ds[k]? = some e → d ≤ e

theorem located_foldl_addLast (s : Settings) (rows : List Row) (f : Forest StyledText) :
    (rows.foldl (fun f r => f.addLast r.depth (rowText s false r)) f).located [] 0 =
      f.located [] 0 ++
        (f.lastPath.run (rows.map (·.depth))).zip (rows.map (rowText s false)) := by
  induction rows generalizing f with
  | nil => simp [Path.run]
  | cons r rows ih =>
      rw [List.foldl_cons, ih, Forest.located_addLast, Forest.lastPath_addLast,
        Path.moved_nil_zero, List.append_assoc]
      rfl

theorem located_tree (s : Settings) (rows : List Row) :
    (tree s rows).located [] 0 =
      (Path.run [] (rows.map (·.depth))).zip (rows.map (rowText s false)) :=
  located_foldl_addLast s rows .nil

theorem places_tree (s : Settings) (rows : List Row) :
    (tree s rows).places = Path.run [] (rows.map (·.depth)) := by
  rw [Forest.places, located_tree, List.map_fst_zip (by simp)]

/-- Every row is in the tree, and they come in their order. -/
theorem preorder_tree (s : Settings) (rows : List Row) :
    (tree s rows).preorder = rows.map (rowText s false) := by
  rw [← Forest.map_snd_located _ [] 0, located_tree, List.map_snd_zip (by simp)]

end Layout

/-! The rows of a document. -/

namespace Row

variable {openAt : Path → Bool} {term : String} {above : Path} {index : Nat}

theorem head?_emit {f : Forest (Head × Bool)} {r : Row}
    (h : r ∈ (emit openAt term above index f).head?) :
    r.path = above ++ [index] ∧ r.depth = above.length := by
  cases f with
  | nil => cases h
  | cons a below rest =>
      obtain rfl := Option.some.inj h
      exact ⟨rfl, rfl⟩

/-- A row of a document stands at the next path behind the row before it. -/
theorem isChain_emit (openAt : Path → Bool) (term : String) (above : Path) (index : Nat)
    (f : Forest (Head × Bool)) :
    (emit openAt term above index f).IsChain fun r q => q.path = r.path.next q.depth := by
  induction f generalizing above index with
  | nil => exact .nil
  | cons a below rest ihb ihr =>
      -- the next root stands behind all that is below this one
      have hroot (path : Path) : ∀ q ∈ (emit openAt term above (index + 1) rest).head?,
          q.path = Path.next (above ++ index :: path) q.depth := by
        intro q hq
        obtain ⟨hpath, hdepth⟩ := head?_emit hq
        rw [hpath, hdepth, Path.next_append_cons]
      have hfirst : ∀ q ∈ (emit openAt term (above ++ [index]) 0 below).head?,
          q.path = Path.next (above ++ [index]) q.depth := by
        intro q hq
        obtain ⟨hpath, hdepth⟩ := head?_emit hq
        rw [hpath, hdepth, Path.next_length]
      rw [emit_cons, List.isChain_cons, List.isChain_append]
      refine ⟨?_, ?_, ihr above (index + 1), ?_⟩
      · intro q hq
        rw [List.head?_append, Option.mem_def, Option.or_eq_some_iff] at hq
        rcases hq with hq | ⟨_, hq⟩
        · split at hq
          · exact hfirst q hq
          · cases hq
        · exact hroot [] q hq
      · split
        · exact ihb _ _
        · exact .nil
      · intro r hr q hq
        obtain ⟨i, path, hpath⟩ := exists_path_of_mem_below (List.mem_of_getLast? hr)
        rw [hpath]
        exact hroot (i :: path) q hq

theorem run_depths {rows : List Row} {last : Path}
    (hhead : ∀ r ∈ rows.head?, r.path = last.next r.depth)
    (hchain : rows.IsChain fun r q => q.path = r.path.next q.depth) :
    last.run (rows.map (·.depth)) = rows.map (·.path) := by
  induction rows generalizing last with
  | nil => rfl
  | cons r rows ih =>
      obtain ⟨hnext, hrest⟩ := List.isChain_cons.mp hchain
      have hr : r.path = last.next r.depth := hhead r rfl
      rw [List.map_cons, List.map_cons, Path.run, ← hr, ih hnext hrest]

theorem run_depths_ofForest (f : Forest Head) (t : Toolbar) (o : Overrides)
    (term : Option String) :
    Path.run [] ((ofForest f t o term).map (·.depth)) = (ofForest f t o term).map (·.path) := by
  apply run_depths
  · intro r hr
    obtain ⟨hpath, _⟩ := head?_emit hr
    rw [hpath, Path.next_nil]
    rfl
  · exact isChain_emit _ _ _ _ _

end Row

/-- A row is the row of a root, or the node above its own has a row too. -/
theorem Row.exists_row_above {f : Forest Head} {t : Toolbar} {o : Overrides}
    {term : Option String} {r : Row} (h : r ∈ ofForest f t o term) :
    ∃ above k, r.path = above ++ [k] ∧
      (above ≠ [] → ∃ u ∈ ofForest f t o term, u.path = above) := by
  have hvisible : f.IsVisible t o (term.getD t.effectiveTerm) r.path :=
    mem_map_path_ofForest.mp (List.mem_map_of_mem h)
  obtain ⟨n, hn⟩ := Option.isSome_iff_exists.mp hvisible.1
  obtain ⟨above, k, hpath⟩ : ∃ above k, r.path = above ++ [k] :=
    (List.eq_nil_or_concat' r.path).resolve_left (Forest.ne_nil_of_at?_eq_some hn)
  refine ⟨above, k, hpath, ?_⟩
  intro hne
  have habove : above <+: r.path := ⟨[k], hpath.symm⟩
  exact List.mem_map.mp (mem_map_path_ofForest.mpr (hvisible.of_above habove hne))

namespace Layout

/-- The rows of a document stand at their own paths. -/
theorem places_tree_ofForest (s : Settings) (f : Forest Head) (t : Toolbar) (o : Overrides)
    (term : Option String) :
    (tree s (Row.ofForest f t o term)).places = (Row.ofForest f t o term).map (·.path) := by
  rw [places_tree, Row.run_depths_ofForest]

theorem hangsOn_ofForest (s : Settings) {f : Forest Head} {t : Toolbar} {o : Overrides}
    {term : Option String} {i : Nat} {r : Row} (hr : (Row.ofForest f t o term)[i]? = some r) :
    (r.path.length = 1 → HangsOn (tree s (Row.ofForest f t o term)).places i none) ∧
      (r.path.length ≠ 1 → ∃ j u, (Row.ofForest f t o term)[j]? = some u ∧
        u.path = r.path.dropLast ∧
        HangsOn (tree s (Row.ofForest f t o term)).places i (some j)) := by
  obtain ⟨above, k, hpath, habove⟩ := Row.exists_row_above (List.mem_of_getElem? hr)
  have hplace : ((Row.ofForest f t o term).map (·.path))[i]? = some (above ++ [k]) := by
    rw [List.getElem?_map, hr, Option.map_some, hpath]
  rw [places_tree_ofForest, hpath]
  cases above with
  | nil => exact ⟨fun _ => ⟨k, hplace⟩, fun h => absurd rfl h⟩
  | cons first above =>
      refine ⟨fun h => by simp at h, fun _ => ?_⟩
      obtain ⟨u, hu, hupath⟩ := habove (List.cons_ne_nil first above)
      obtain ⟨j, hj⟩ := List.getElem?_of_mem hu
      refine ⟨j, u, hj, ?_, first :: above, k, ?_, hplace⟩
      · rw [List.dropLast_concat, hupath]
      · rw [List.getElem?_map, hj, Option.map_some, hupath]

end Layout

/-! Rows that skip no depth. -/

namespace Layout

/-- Rows of the given depths stand at the given places, one behind the other. Every node
from a root down to the last place is one of them, and behind it all are deeper. -/
structure Standing (ds : List Nat) (places : List Path) (last : Path) : Prop where
  length : places.length = ds.length
  onWay : ∀ k : Nat, k < last.length → ∃ j : Nat, places[j]? = some (last.take (k + 1)) ∧
    ds[j]? = some k ∧ ∀ m e : Nat, j < m → ds[m]? = some e → k < e

namespace Standing

variable {ds : List Nat} {places : List Path} {last : Path} {d : Nat}

theorem nil : Standing [] [] [] :=
  ⟨rfl, fun k hk => absurd hk (Nat.not_lt_zero k)⟩

theorem concat (h : Standing ds places last) (hd : d ≤ last.length) :
    Standing (ds ++ [d]) (places ++ [last.next d]) (last.next d) := by
  refine ⟨by simp [h.length], ?_⟩
  intro k hk
  rw [Path.length_next hd] at hk
  by_cases hkd : k = d
  · -- the row itself, which has nothing behind it
    subst hkd
    refine ⟨ds.length, ?_, by simp, ?_⟩
    · rw [← h.length, List.getElem?_concat_length, List.take_of_length_le]
      exact Nat.le_of_eq (Path.length_next hd)
    · intro m e hm he
      have hlt : m < (ds ++ [k]).length := (List.getElem?_eq_some_iff.mp he).1
      rw [List.length_append, List.length_singleton] at hlt
      omega
  · have hlt : k < d := by omega
    obtain ⟨j, hplace, hj, hdeeper⟩ := h.onWay k (by omega)
    have hjlt : j < ds.length := (List.getElem?_eq_some_iff.mp hj).1
    refine ⟨j, ?_, ?_, ?_⟩
    · rw [List.getElem?_append_left (by rw [h.length]; exact hjlt), hplace,
        Path.take_next hd hlt]
    · rw [List.getElem?_append_left hjlt, hj]
    · intro m e hm he
      by_cases hmd : m < ds.length
      · rw [List.getElem?_append_left hmd] at he
        exact hdeeper m e hm he
      · rw [List.getElem?_append_right (Nat.le_of_not_lt hmd), List.getElem?_singleton] at he
        split at he
        · cases he
          exact hlt
        · cases he

/-- The row that comes next hangs on the nearest one of smaller depth. -/
theorem exists_parent (h : Standing ds places last) (hd : d ≤ last.length) (paths : List Path)
    (others : List Nat) :
    ∃ p, HangsOn (places ++ last.next d :: paths) ds.length p ∧
      IsNearest (ds ++ d :: others) ds.length d p := by
  have hplace : (places ++ last.next d :: paths)[ds.length]? = some (last.next d) := by
    simp [← h.length]
  cases d with
  | zero => exact ⟨none, ⟨_, hplace⟩, fun _ e _ _ => Nat.zero_le e⟩
  | succ k =>
      obtain ⟨j, hj, hk, hdeeper⟩ := h.onWay k hd
      have hlt : j < ds.length := (List.getElem?_eq_some_iff.mp hk).1
      refine ⟨some j, ⟨last.take (k + 1), _, ?_, hplace⟩, hlt, ⟨k, ?_, Nat.lt_succ_self k⟩, ?_⟩
      · rw [List.getElem?_append_left (by rw [h.length]; exact hlt), hj]
      · rw [List.getElem?_append_left hlt, hk]
      · intro m e hjm hm he
        rw [List.getElem?_append_left hm] at he
        exact hdeeper m e hjm he

theorem exists_parent_run (h : Standing ds places last) {others : List Nat}
    (hhead : ∀ d ∈ others.head?, d ≤ last.length)
    (hchain : others.IsChain fun d e => e ≤ d + 1) {i : Nat} (hi : ds.length ≤ i)
    (hd : (ds ++ others)[i]? = some d) :
    ∃ p, HangsOn (places ++ last.run others) i p ∧ IsNearest (ds ++ others) i d p := by
  induction others generalizing ds places last with
  | nil =>
      rw [List.append_nil] at hd
      have hlt : i < ds.length := (List.getElem?_eq_some_iff.mp hd).1
      omega
  | cons e others ih =>
      obtain ⟨hnext, hrest⟩ := List.isChain_cons.mp hchain
      have he : e ≤ last.length := hhead e rfl
      rw [Path.run]
      by_cases hlast : i = ds.length
      · subst hlast
        rw [List.getElem?_append_right (Nat.le_refl _), Nat.sub_self] at hd
        cases hd
        exact h.exists_parent he _ others
      · rw [List.append_cons] at hd
        rw [List.append_cons, List.append_cons ds]
        apply ih (h.concat he) _ hrest _ hd
        · intro d' hd'
          rw [Path.length_next he]
          exact hnext d' hd'
        · rw [List.length_append, List.length_singleton]
          omega

end Standing

theorem hangsOn_of_isChain (s : Settings) {rows : List Row}
    (hhead : ∀ r ∈ rows.head?, r.depth = 0)
    (hchain : rows.IsChain fun r q => q.depth ≤ r.depth + 1) {i : Nat} {r : Row}
    (hr : rows[i]? = some r) :
    ∃ p, HangsOn (tree s rows).places i p ∧ IsNearest (rows.map (·.depth)) i r.depth p := by
  have hd : ([] ++ rows.map (·.depth))[i]? = some r.depth := by
    rw [List.nil_append, List.getElem?_map, hr, Option.map_some]
  rw [places_tree]
  refine Standing.nil.exists_parent_run ?_ ?_ (Nat.zero_le i) hd
  · intro d hfirst
    rw [List.head?_map, Option.mem_def, Option.map_eq_some_iff] at hfirst
    obtain ⟨first, hfirst, rfl⟩ := hfirst
    exact Nat.le_of_eq (hhead first hfirst)
  · rw [List.isChain_map]
    exact hchain

/-- Behind a skipped depth a row may hang on one of its own depth. -/
example : Path.run [] [0, 2, 2] = [[0], [0, 0], [0, 0, 0]] := rfl

/-- The tree layout is the tree that the branches build, with every row in its place. The
row of a node of a document hangs on the row of the node above. Any rows that skip no depth
hang on the nearest one in front that has a smaller depth. -/
theorem tree_parents (s : Settings) (label : String) :
    (∀ (f : Forest Head) (t : Toolbar) (o : Overrides) (term : Option String),
      let rows := Row.ofForest f t o term
      ∀ i r, rows[i]? = some r →
        (r.path.length = 1 → HangsOn (tree s rows).places i none) ∧
          (r.path.length ≠ 1 → ∃ j u, rows[j]? = some u ∧ u.path = r.path.dropLast ∧
            HangsOn (tree s rows).places i (some j))) ∧
      ∀ rows : List Row,
        grow? s label rows =
            some { root := [{ text := label, style := labelStyle }], below := tree s rows } ∧
          (tree s rows).preorder = rows.map (rowText s false) ∧
          ((∀ r ∈ rows.head?, r.depth = 0) →
            rows.IsChain (fun r q => q.depth ≤ r.depth + 1) →
              ∀ i r, rows[i]? = some r →
                ∃ p, HangsOn (tree s rows).places i p ∧
                  IsNearest (rows.map (·.depth)) i r.depth p) := by
  refine ⟨?_, fun rows => ⟨grow?_eq_tree s label rows, preorder_tree s rows, ?_⟩⟩
  · intro f t o term rows i r hr
    exact hangsOn_ofForest s hr
  · intro hhead hchain i r hr
    exact hangsOn_of_isChain s hhead hchain hr

/-- A field of a query, and the last of four rows whose depths come back to one. -/
theorem tree_parents_field :
    let field (name : String) (below rest : Forest Head) : Forest Head :=
      .cons { kind := .field, name } below rest
    let forest : Forest Head := .cons { kind := .operation }
      (field "user" (field "name" .nil .nil) (field "pet" .nil .nil)) .nil
    let rows := Row.ofForest forest {} {} none
    let jumping : List Row := [0, 1, 2, 1].map fun depth =>
      { depth, segments := [], hasChildren := false, isOpen := false }
    let s := Settings.ofDefaults {}
    (∃ j u, rows[j]? = some u ∧ u.path = [0] ∧ HangsOn (tree s rows).places 3 (some j)) ∧
      ∃ p, HangsOn (tree s jumping).places 3 p ∧ IsNearest [0, 1, 2, 1] 3 1 p := by
  intro field forest rows jumping s
  obtain ⟨hforest, hrows⟩ := tree_parents s "label"
  obtain ⟨-, -, hnearest⟩ := hrows jumping
  refine ⟨?_, hnearest (by decide) (by decide) 3 _ rfl⟩
  obtain ⟨r, hr, hpath⟩ : ∃ r, rows[3]? = some r ∧ r.path = [0, 1] := ⟨_, rfl, by decide +kernel⟩
  obtain ⟨j, u, hu, hup, hangs⟩ := (hforest forest {} {} none 3 r hr).2 (by rw [hpath]; decide)
  exact ⟨j, u, hu, by rw [hup, hpath]; rfl, hangs⟩

end Layout

end QueryOutline
