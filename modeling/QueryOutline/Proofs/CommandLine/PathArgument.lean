import Mathlib.Data.List.Forall2
import QueryOutline.CommandLine.PathArgument
import QueryOutline.Proofs.Outline.Visible
import QueryOutline.Proofs.Text.Integer

/-!
Paths as they are written. The parts of an argument between its dots are read one by one, so an
argument is a path just in case each part writes an integer and none of these is negative. The
indices of a path with dots between them are such an argument, and it is read as that path, so
that every row of a document can be named.
-/

namespace QueryOutline

def Path.dotted (path : Path) : String :=
  ".".intercalate (path.map toString)

namespace Text

theorem splitAtEach_eq_splitOn {α : Type} [DecidableEq α] (separator : α) (cs : List α) :
    splitAtEach separator cs = cs.splitOn separator := by
  induction cs with
  | nil => rfl
  | cons c cs ih =>
      rw [splitAtEach, ih, List.splitOn_cons_eq_if_modifyHead]
      by_cases hc : c = separator
      · simp [hc]
      · obtain ⟨part, parts, hparts⟩ :=
          List.exists_cons_of_ne_nil (List.splitOn_ne_nil separator cs)
        simp [hc, hparts]

theorem splitAtEach_dotted {path : Path} (hne : path ≠ []) :
    splitAtEach '.' path.dotted.toList = path.map fun n => (toString n).toList := by
  have hdots : path.dotted.toList = ['.'].intercalate (path.map fun n => (toString n).toList) := by
    rw [Path.dotted, String.toList_intercalate, List.map_map]
    rfl
  rw [splitAtEach_eq_splitOn, hdots, List.splitOn_intercalate]
  · intro part hpart
    obtain ⟨n, -, rfl⟩ := List.mem_map.mp hpart
    intro hdot
    have hdigit := Nat.isDigit_of_mem_toDigits (by decide) (by decide) (Nat.toList_repr ▸ hdot)
    contradiction
  · simpa using hne

end Text

namespace Forest

variable {α : Type}

/-- Indices stay below the number of nodes. -/
theorem lt_length_preorder {f : Forest α} {path : Path} {t : Tree α} (h : f.at? path = some t) :
    ∀ n ∈ path, n < f.preorder.length := by
  induction f generalizing path with
  | nil => simp [at?] at h
  | cons a below rest ihb ihr =>
      rw [preorder, List.length_cons, List.length_append]
      rcases at?_cons_eq_some_iff.mp h with ⟨rfl, _⟩ | ⟨q, rfl, hq⟩ | ⟨i, q, rfl, hq⟩
      · simp
      · have hbelow := ihb hq
        intro n hn
        rcases List.mem_cons.mp hn with rfl | hn
        · omega
        · have hlt := hbelow n hn
          omega
      · have hrest := ihr hq
        intro n hn
        rcases List.mem_cons.mp hn with rfl | hn
        · have hlt := hrest i (by simp)
          omega
        · have hlt := hrest n (List.mem_cons_of_mem _ hn)
          omega

end Forest

namespace CommandLine

open Text (WritesInteger readInteger_eq_ok_iff writesInteger_toString_iff maxIntegerDigits)

variable {parts : List (List Char)}

theorem readIndices_eq_some_iff {ns : List Int} :
    readIndices parts = some ns ↔ parts.Forall₂ WritesInteger ns := by
  induction parts generalizing ns with
  | nil => simp [readIndices, eq_comm]
  | cons part parts ih =>
      have hcons : readIndices (part :: parts) = some ns ↔
          ∃ n rest, Text.readInteger (String.ofList part) = .ok n ∧
            readIndices parts = some rest ∧ n :: rest = ns := by
        rw [readIndices]
        cases Text.readInteger (String.ofList part) with
        | error fault => simp
        | ok n => cases readIndices parts <;> simp
      simp only [hcons, readInteger_eq_ok_iff, ih, List.forall₂_cons_left_iff, eq_comm (a := ns)]

/-- Integers are not read just in case one of the parts writes none. -/
theorem readIndices_eq_none_iff :
    readIndices parts = none ↔ ∃ part ∈ parts, ∀ n, ¬ WritesInteger part n := by
  induction parts with
  | nil => simp [readIndices]
  | cons part parts ih =>
      rw [List.exists_mem_cons_iff, ← ih, readIndices]
      simp only [← readInteger_eq_ok_iff]
      cases Text.readInteger (String.ofList part) with
      | error fault => simp
      | ok n => cases readIndices parts <;> simp

/-- An argument that is no path has a part that writes no integer, or else a negative one. -/
theorem readPath_cases (text : String) :
    let indices := readIndices (text.toList.splitOn '.')
    indices = none ∧ readPath text = .error (.malformed text) ∨
      (∃ ns, indices = some ns ∧ (∃ n ∈ ns, n < 0) ∧ readPath text = .error (.negative text)) ∨
      ∃ path : Path, indices = some (path.map Nat.cast) ∧ readPath text = .ok path := by
  rw [readPath, Text.splitAtEach_eq_splitOn]
  cases readIndices (text.toList.splitOn '.') with
  | none => exact .inl ⟨rfl, rfl⟩
  | some ns =>
      by_cases hnegative : ∃ n ∈ ns, n < 0
      · have hany : ns.any (· < 0) = true := by simpa using hnegative
        exact .inr (.inl ⟨ns, rfl, hnegative, if_pos hany⟩)
      · have hany : ¬ ns.any (· < 0) = true := by simpa using hnegative
        have hnatural : (ns.map Int.toNat).map Nat.cast = ns := by
          rw [List.map_map]
          refine (List.map_congr_left ?_).trans (List.map_id ns)
          intro n hn
          exact Int.toNat_of_nonneg (Int.not_lt.mp fun hlt => hnegative ⟨n, hn, hlt⟩)
        exact .inr (.inr ⟨ns.map Int.toNat, congrArg some hnatural.symm, if_neg hany⟩)

variable {text : String}

/-- A path is read as one index for each part, the integer that the part writes. -/
theorem readPath_eq_ok_iff {path : Path} :
    readPath text = .ok path ↔
      (text.toList.splitOn '.').Forall₂ (fun part (n : Nat) => WritesInteger part n) path := by
  rw [← List.forall₂_map_right_iff (R := WritesInteger) (f := Nat.cast),
    ← readIndices_eq_some_iff]
  rcases readPath_cases text with ⟨hread, h⟩ | ⟨ns, hread, hnegative, h⟩ | ⟨other, hread, h⟩
  · simp [hread, h]
  · rw [hread, h]
    refine iff_of_false (by simp) ?_
    rintro ⟨⟩
    obtain ⟨n, hn, hlt⟩ := hnegative
    obtain ⟨index, -, rfl⟩ := List.mem_map.mp hn
    omega
  · have hcast (m n : Nat) : (m : Int) = n → m = n := Int.ofNat.inj
    rw [hread, h, Except.ok.injEq, Option.some.injEq, List.map_inj_right hcast]

/-- The same index may be spelled in many ways. -/
example : readPath "\u0663. +1_0\t" = .ok [3, 10] := by decide +kernel

theorem readPath_eq_error_iff {fault : PathFault} :
    readPath text = .error fault ↔
      fault = .malformed text ∧
          (∃ part ∈ text.toList.splitOn '.', ∀ n, ¬ WritesInteger part n) ∨
        fault = .negative text ∧
          ∃ ns, (text.toList.splitOn '.').Forall₂ WritesInteger ns ∧ ∃ n ∈ ns, n < 0 := by
  simp only [← readIndices_eq_none_iff, ← readIndices_eq_some_iff]
  rcases readPath_cases text with ⟨hread, h⟩ | ⟨ns, hread, hnegative, h⟩ | ⟨path, hread, h⟩
  · simp [hread, h, eq_comm]
  · simp [hread, h, hnegative, eq_comm (a := fault)]
  · simp [hread, h]

/-- The indices with dots between them are read as they are if none of them is too long. -/
theorem readPath_dotted_iff {path : Path} (hne : path ≠ []) :
    readPath path.dotted = .ok path ↔ ∀ n ∈ path, (toString n).length ≤ maxIntegerDigits := by
  rw [readPath_eq_ok_iff, ← Text.splitAtEach_eq_splitOn, Text.splitAtEach_dotted hne,
    List.forall₂_map_left_iff, List.forall₂_same]
  simp only [writesInteger_toString_iff, and_true]

variable {f : Forest Head} {t : Toolbar} {o : Overrides} {term : Option String} {r : Row}

theorem exists_at?_of_mem_ofForest (hr : r ∈ Row.ofForest f t o term) :
    ∃ n, f.at? r.path = some n := by
  have hvisible := Row.mem_map_path_ofForest.mp (List.mem_map_of_mem hr)
  exact Option.isSome_iff_exists.mp hvisible.1

theorem readPath_dotted_iff_of_mem_ofForest (hr : r ∈ Row.ofForest f t o term) :
    readPath r.path.dotted = .ok r.path ↔
      ∀ n ∈ r.path, (toString n).length ≤ maxIntegerDigits := by
  obtain ⟨n, hn⟩ := exists_at?_of_mem_ofForest hr
  exact readPath_dotted_iff (Forest.ne_nil_of_at?_eq_some hn)

/-- In a document of at most so many nodes no index is too long. -/
theorem readPath_dotted_of_mem_ofForest (hsize : f.preorder.length ≤ 10 ^ maxIntegerDigits)
    (hr : r ∈ Row.ofForest f t o term) : readPath r.path.dotted = .ok r.path := by
  obtain ⟨n, hn⟩ := exists_at?_of_mem_ofForest hr
  rw [readPath_dotted_iff_of_mem_ofForest hr]
  intro index hindex
  have hlt := (Forest.lt_length_preorder hn index hindex).trans_le hsize
  exact (Nat.length_repr_le_iff (by decide)).mpr hlt

/-- Any path can be written as an argument, that of each row among them, and no argument is read
as anything but one natural number for each of its parts. -/
theorem readPath_addresses :
    (∀ path : Path, path ≠ [] →
      (readPath path.dotted = .ok path ↔
        ∀ n ∈ path, (toString n).length ≤ maxIntegerDigits)) ∧
    (∀ (f : Forest Head) (t : Toolbar) (o : Overrides) (term : Option String),
      ∀ r ∈ Row.ofForest f t o term,
        (readPath r.path.dotted = .ok r.path ↔
          ∀ n ∈ r.path, (toString n).length ≤ maxIntegerDigits) ∧
        (f.preorder.length ≤ 10 ^ maxIntegerDigits → readPath r.path.dotted = .ok r.path)) ∧
    ∀ text : String,
      let parts := text.toList.splitOn '.'
      (∀ path, readPath text = .ok path ↔
        parts.Forall₂ (fun part (n : Nat) => WritesInteger part n) path) ∧
      ∀ fault, readPath text = .error fault ↔
        fault = .malformed text ∧ (∃ part ∈ parts, ∀ n, ¬ WritesInteger part n) ∨
          fault = .negative text ∧ ∃ ns, parts.Forall₂ WritesInteger ns ∧ ∃ n ∈ ns, n < 0 := by
  refine ⟨fun _ hne => readPath_dotted_iff hne, ?_, ?_⟩
  · intro f t o term r hr
    exact ⟨readPath_dotted_iff_of_mem_ofForest hr,
      fun hsize => readPath_dotted_of_mem_ofForest hsize hr⟩
  · intro text
    exact ⟨fun _ => readPath_eq_ok_iff, fun _ => readPath_eq_error_iff⟩

theorem readPath_addresses_pet :
    let forest : Forest Head :=
      .cons { kind := .operation } (.cons { kind := .field, name := "user" } .nil
        (.cons { kind := .field, name := "pet" } .nil .nil)) .nil
    readPath (Path.dotted [0, 12, 3]) = .ok [0, 12, 3] ∧
      forest.preorder.length ≤ 10 ^ maxIntegerDigits ∧
      ∃ r ∈ Row.ofForest forest {} {} none, r.path = [0, 1] ∧
        readPath r.path.dotted = .ok r.path := by
  intro forest
  obtain ⟨hwritten, hrows, -⟩ := readPath_addresses
  have hsize : forest.preorder.length ≤ 10 ^ maxIntegerDigits := by
    have hnodes : forest.preorder.length ≤ 10 ^ 1 := by decide +kernel
    exact hnodes.trans (Nat.pow_le_pow_right (by decide) (by decide))
  obtain ⟨r, hr, hpath⟩ : ∃ r ∈ Row.ofForest forest {} {} none, r.path = [0, 1] := by
    decide +kernel
  obtain ⟨-, hread⟩ := hrows forest {} {} none r hr
  exact ⟨(hwritten [0, 12, 3] (by decide)).mpr (by decide), hsize, r, hr, hpath, hread hsize⟩

end CommandLine

end QueryOutline
