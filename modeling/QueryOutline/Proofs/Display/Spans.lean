import Mathlib.Data.List.TakeWhile
import QueryOutline.Proofs.Display.Nesting
import QueryOutline.Proofs.Outline.Painted

/-!
Spans of the rows that are laid out. Behind margin and marker a row shows the characters of its
segments, as far as a terminal does not act on them. Every segment with a text and a style has
one span, which covers what is seen of that segment and nothing else. So the highlighted spans
of a row cover its highlights, whatever is dropped from the texts before them.
-/

namespace QueryOutline

def Span.under (sp : Span) (cs : List Char) : List Char :=
  (cs.drop sp.start).take (sp.stop - sp.start)

theorem Span.under_append {sp : Span} {before inside after : List Char}
    (hstart : sp.start = before.length) (hstop : sp.stop = before.length + inside.length) :
    sp.under (before ++ (inside ++ after)) = inside := by
  have hlength : sp.stop - sp.start = inside.length := by omega
  rw [under, hlength, hstart, List.drop_left, List.take_left]

namespace StyledText

variable {offset : Nat} {t : StyledText}

/-! Spans of pieces that stand one behind the other. -/

theorem toList_plain (t : StyledText) : t.plain.toList = t.flatMap Piece.visible :=
  String.toList_ofList

theorem spansFrom_append (offset : Nat) (t u : StyledText) :
    spansFrom offset (t ++ u) =
      spansFrom offset t ++ spansFrom (offset + (t.flatMap Piece.visible).length) u := by
  induction t generalizing offset with
  | nil => rfl
  | cons p t ih =>
      rw [List.cons_append, spansFrom, spansFrom, ih, List.flatMap_cons, List.length_append,
        Nat.add_assoc]
      split
      · rfl
      · rfl

/-- Spans keep to the characters of their text. -/
theorem bounds_of_mem_spansFrom {sp : Span} (h : sp ∈ spansFrom offset t) :
    offset ≤ sp.start ∧ sp.start ≤ sp.stop ∧
      sp.stop ≤ offset + (t.flatMap Piece.visible).length := by
  induction t generalizing offset with
  | nil => cases h
  | cons p t ih =>
      have hothers (h : sp ∈ spansFrom (offset + p.visible.length) t) :
          offset ≤ sp.start ∧ sp.start ≤ sp.stop ∧
            sp.stop ≤ offset + ((p :: t).flatMap Piece.visible).length := by
        obtain ⟨hstart, hle, hstop⟩ := ih h
        rw [List.flatMap_cons, List.length_append]
        omega
      rw [spansFrom] at h
      split at h
      · exact hothers h
      · rcases List.mem_cons.mp h with rfl | h
        · rw [List.flatMap_cons, List.length_append]
          dsimp only
          omega
        · exact hothers h

theorem pairwise_spansFrom (offset : Nat) (t : StyledText) :
    (spansFrom offset t).Pairwise fun a b => a.stop ≤ b.start := by
  induction t generalizing offset with
  | nil => exact .nil
  | cons p t ih =>
      rw [spansFrom]
      split
      · exact ih _
      · exact List.pairwise_cons.mpr ⟨fun sp hsp => (bounds_of_mem_spansFrom hsp).1, ih _⟩

end StyledText

theorem Text.trim_eq_empty_iff {s : String} :
    trim s = "" ↔ ∀ c ∈ s.toList, isBlank c = true := by
  have hall : trim s = "" ↔ ∀ c ∈ s.toList.dropWhile isBlank, isBlank c = true := by
    rw [← String.toList_inj, trim, trimChars, String.toList_ofList]
    simp
  rw [hall]
  refine ⟨fun h c hc => ?_, fun h c hc => h c ((List.dropWhile_sublist _).subset hc)⟩
  rw [← List.takeWhile_append_dropWhile (p := isBlank) (l := s.toList), List.mem_append] at hc
  rcases hc with hc | hc
  · exact List.mem_takeWhile_imp hc
  · exact h c hc

/-! Segments in the order of a header. -/

namespace Layout

def shown (gs : List Segment) : List Char :=
  (Segment.chars gs).filter (!Piece.isDropped ·)

/-- The span of the segment at an index, when the first segment begins at an offset: from where
the segments before it end to where it ends itself. -/
def segmentSpan? (s : Settings) (offset : Nat) (gs : List Segment) (i : Nat) : Option Span :=
  gs[i]?.bind fun g =>
    let style := (segmentPiece s g).style
    if g.text = "" ∨ style = "" then none
    else some {
      start := offset + (shown (gs.take i)).length
      stop := offset + (shown (gs.take (i + 1))).length
      style }

variable {s : Settings} {offset i : Nat} {g : Segment} {gs : List Segment}

theorem shown_append (gs hs : List Segment) : shown (gs ++ hs) = shown gs ++ shown hs := by
  rw [shown, Segment.chars_append, List.filter_append]
  rfl

theorem shown_cons (g : Segment) (gs : List Segment) : shown (g :: gs) = shown [g] ++ shown gs :=
  shown_append [g] gs

theorem visible_segmentPiece (s : Settings) (g : Segment) :
    (segmentPiece s g).visible = shown [g] := by
  simp [Piece.visible, segmentPiece, shown]

theorem flatMap_visible (s : Settings) (gs : List Segment) :
    (gs.map (segmentPiece s)).flatMap Piece.visible = shown gs := by
  induction gs with
  | nil => rfl
  | cons g gs ih =>
      rw [List.map_cons, List.flatMap_cons, ih, visible_segmentPiece, ← shown_cons]

theorem segmentSpan?_succ (s : Settings) (offset : Nat) (g : Segment) (gs : List Segment)
    (i : Nat) : segmentSpan? s offset (g :: gs) (i + 1) =
      segmentSpan? s (offset + (shown [g]).length) gs i := by
  have hlength (hs : List Segment) : offset + (shown (g :: hs)).length =
      offset + (shown [g]).length + (shown hs).length := by
    rw [shown_cons, List.length_append, Nat.add_assoc]
  rw [segmentSpan?, segmentSpan?, List.getElem?_cons_succ, List.take_succ_cons,
    List.take_succ_cons, hlength (gs.take i), hlength (gs.take (i + 1))]

theorem spansFrom_segments (s : Settings) (offset : Nat) (gs : List Segment) :
    StyledText.spansFrom offset (gs.map (segmentPiece s)) =
      (List.range gs.length).filterMap (segmentSpan? s offset gs) := by
  induction gs generalizing offset with
  | nil => rfl
  | cons g gs ih =>
      have hfirst : segmentSpan? s offset (g :: gs) 0 =
          if g.text = "" ∨ (segmentPiece s g).style = "" then none
          else some ⟨offset, offset + (shown [g]).length, (segmentPiece s g).style⟩ := by
        simp [segmentSpan?, shown]
      have hempty : ((segmentPiece s g).text.isEmpty || (segmentPiece s g).style.isEmpty) = true ↔
          g.text = "" ∨ (segmentPiece s g).style = "" := by
        rw [Bool.or_eq_true, String.isEmpty_iff, String.isEmpty_iff]
        rfl
      rw [List.map_cons, StyledText.spansFrom, List.length_cons, List.range_succ_eq_map,
        List.filterMap_cons, List.filterMap_map, visible_segmentPiece, ih, hfirst]
      simp only [hempty, Function.comp_def, segmentSpan?_succ]
      split <;> rfl

/-- The span of a segment covers what is seen of it. -/
theorem under_segmentSpan? {before : List Char} {sp : Span} (hg : gs[i]? = some g)
    (h : segmentSpan? s before.length gs i = some sp) :
    sp.under (before ++ shown gs) = shown [g] := by
  obtain ⟨hlt, rfl⟩ := List.getElem?_eq_some_iff.mp hg
  have hsplit : gs = gs.take i ++ gs[i] :: gs.drop (i + 1) := by
    rw [List.getElem_cons_drop, List.take_append_drop]
  have hnext : shown (gs.take (i + 1)) = shown (gs.take i) ++ shown [gs[i]] := by
    rw [List.take_succ_eq_append_getElem hlt, shown_append]
  have hall : before ++ shown gs =
      (before ++ shown (gs.take i)) ++ (shown [gs[i]] ++ shown (gs.drop (i + 1))) := by
    rw [List.append_assoc, ← shown_cons, ← shown_append, ← hsplit]
  simp only [segmentSpan?, hg, Option.bind_some] at h
  split at h
  · contradiction
  · obtain rfl := Option.some.inj h
    rw [hall]
    apply Span.under_append
    · rw [List.length_append]
    · rw [hnext, List.length_append, List.length_append, Nat.add_assoc]

/-- A segment has a span unless it has no text or no style. -/
theorem isSome_segmentSpan?_iff (hg : gs[i]? = some g) :
    (segmentSpan? s offset gs i).isSome = true ↔ g.text ≠ "" ∧ (segmentPiece s g).style ≠ "" := by
  simp only [segmentSpan?, hg, Option.bind_some]
  split
  · next h => simpa [← not_or] using h
  · next h => simpa [← not_or] using h

theorem style_of_segmentSpan? {sp : Span} (hg : gs[i]? = some g)
    (h : segmentSpan? s offset gs i = some sp) : sp.style = (segmentPiece s g).style := by
  simp only [segmentSpan?, hg, Option.bind_some] at h
  split at h
  · contradiction
  · rw [← Option.some.inj h]

/-! Highlights. -/

/-- A highlight has a style even if its role has none. -/
theorem style_ne_of_highlighted (hs : Text.trim s.highlightStyle ≠ "")
    (hg : g.highlighted = true) : (segmentPiece s g).style ≠ "" := by
  have hstyle : (segmentPiece s g).style =
      Text.trim (s.styleFor g.role.text ++ " " ++ s.highlightStyle) := by
    simp [segmentPiece, hg]
  intro hempty
  rw [hstyle, Text.trim_eq_empty_iff] at hempty
  apply hs
  rw [Text.trim_eq_empty_iff]
  intro c hc
  exact hempty c (by simp [hc])

theorem filterMap_range_getElem? {α β : Type} (f : α → Option β) (as : List α) :
    (List.range as.length).filterMap (fun i => as[i]?.bind f) = as.filterMap f := by
  induction as with
  | nil => rfl
  | cons a as ih =>
      rw [List.length_cons, List.range_succ_eq_map, List.filterMap_cons, List.filterMap_map,
        List.filterMap_cons]
      simp only [Function.comp_def, List.getElem?_cons_succ, List.getElem?_cons_zero,
        Option.bind_some, ih]

/-- The spans of highlighted segments, the first segment beginning at an offset. -/
def highlightSpans (s : Settings) (offset : Nat) (gs : List Segment) : List Span :=
  ((List.range gs.length).filter fun i => gs[i]?.any (·.highlighted)).filterMap
    (segmentSpan? s offset gs)

def shownHighlight? (g : Segment) : Option (List Char) :=
  if g.highlighted && decide (g.text ≠ "") then some (shown [g]) else none

theorem filterMap_shownHighlight? (gs : List Segment) :
    gs.filterMap shownHighlight? =
      (((gs.filter (·.highlighted)).map (·.text)).filter (· ≠ "")).map
        fun h => h.toList.filter (!Piece.isDropped ·) := by
  induction gs with
  | nil => rfl
  | cons g gs ih =>
      rw [List.filterMap_cons, ih]
      by_cases hg : g.highlighted = true
      · by_cases htext : g.text = ""
        · simp [shownHighlight?, hg, htext]
        · simp [shownHighlight?, hg, htext, shown]
      · simp [shownHighlight?, hg]

theorem map_under_highlightSpans (hs : Text.trim s.highlightStyle ≠ "") (before : List Char)
    (gs : List Segment) :
    (highlightSpans s before.length gs).map (·.under (before ++ shown gs)) =
      gs.filterMap shownHighlight? := by
  have hat (i : Nat) : (if gs[i]?.any (·.highlighted) = true then
      (segmentSpan? s before.length gs i).map (·.under (before ++ shown gs)) else none) =
        gs[i]?.bind shownHighlight? := by
    cases hg : gs[i]? with
    | none => rfl
    | some g =>
        cases hh : g.highlighted with
        | false => simp [shownHighlight?, hh]
        | true =>
            have hsome : (segmentSpan? s before.length gs i).isSome = true ↔ g.text ≠ "" := by
              rw [isSome_segmentSpan?_iff hg, and_iff_left (style_ne_of_highlighted hs hh)]
            cases hsp : segmentSpan? s before.length gs i with
            | none =>
                rw [hsp] at hsome
                have htext : g.text = "" := by simpa using hsome
                simp [shownHighlight?, hh, htext]
            | some sp =>
                rw [hsp] at hsome
                have htext : g.text ≠ "" := hsome.mp rfl
                simp [shownHighlight?, hh, htext, under_segmentSpan? hg hsp]
  rw [highlightSpans, List.map_filterMap, List.filterMap_filter]
  simp only [hat]
  exact filterMap_range_getElem? shownHighlight? gs

/-! Rows. -/

def lead (s : Settings) (indented : Bool) (r : Row) : List Char :=
  (if indented then List.replicate (margin s r.depth).toNat ' ' else []) ++
    if r.hasChildren then (if r.isOpen then openMarker else closedMarker).toList
    else if indented then leafMarker.toList
    else []

/-- Only a marker of a row with something below it has a style. -/
def leadSpans (s : Settings) (indented : Bool) (r : Row) : List Span :=
  if r.hasChildren then
    let start := if indented then (margin s r.depth).toNat else 0
    [{ start, stop := start + 2, style := markerStyle }]
  else []

/-- The text shows the row: what it says, and where each style stands. -/
structure Shows (s : Settings) (indented : Bool) (r : Row) (t : StyledText) : Prop where
  plain : t.plain.toList = lead s indented r ++ r.text.toList.filter (!Piece.isDropped ·)
  ordered : t.spans.Pairwise fun a b => a.stop ≤ b.start
  inside : ∀ sp ∈ t.spans, sp.start ≤ sp.stop ∧ sp.stop ≤ t.plain.length
  /-- The spans of the segments stand in the order of the segments. -/
  spans : t.spans = leadSpans s indented r ++ (List.range r.segments.length).filterMap
    (segmentSpan? s (lead s indented r).length r.segments)
  /-- Segments have spans if they have a text and a style, and these cover just the segments. -/
  covered : ∀ i g, r.segments[i]? = some g →
    let found := segmentSpan? s (lead s indented r).length r.segments i
    (found.isSome = true ↔ g.text ≠ "" ∧ (segmentPiece s g).style ≠ "") ∧
      ∀ sp ∈ found, sp.style = (segmentPiece s g).style ∧
        sp.under t.plain.toList = g.text.toList.filter (!Piece.isDropped ·)
  highlights : Text.trim s.highlightStyle ≠ "" →
    (highlightSpans s (lead s indented r).length r.segments).map (·.under t.plain.toList) =
      (r.highlights.filter (· ≠ "")).map fun h => h.toList.filter (!Piece.isDropped ·)

theorem visible_leader (s : Settings) (indented : Bool) (r : Row) :
    (leader s indented r).flatMap Piece.visible = lead s indented r := by
  have hmarker {m : String} (hm : m = openMarker ∨ m = closedMarker ∨ m = leafMarker)
      (style : String) : Piece.visible ⟨m, style⟩ = m.toList := by
    have hkept : m.toList.all (!Piece.isDropped ·) = true := by
      rcases hm with rfl | rfl | rfl <;> decide
    exact List.filter_eq_self.mpr (List.all_eq_true.mp hkept)
  rw [leader, lead, List.flatMap_append]
  congr 1
  · cases indented with
    | true => simp [visible_blanks]
    | false => rfl
  · cases r.hasChildren with
    | true => cases r.isOpen <;> simp [hmarker]
    | false => cases indented <;> simp [hmarker]

theorem spansFrom_leader (s : Settings) (indented : Bool) (r : Row) :
    StyledText.spansFrom 0 (leader s indented r) = leadSpans s indented r := by
  have hmarker (start : Nat) : StyledText.spansFrom start
      [{ text := if r.isOpen then openMarker else closedMarker, style := markerStyle }] =
        [{ start, stop := start + 2, style := markerStyle }] := by
    cases r.isOpen <;> rfl
  have hplain (start : Nat) (text : String) : StyledText.spansFrom start [{ text }] = [] := by
    simp [StyledText.spansFrom]
  rw [leader, leadSpans, StyledText.spansFrom_append]
  cases indented with
  | true => cases r.hasChildren <;> simp [hmarker, hplain, visible_blanks]
  | false => cases r.hasChildren <;> simp [hmarker, StyledText.spansFrom]

theorem shows_rowText (s : Settings) (indented : Bool) (r : Row) :
    Shows s indented r (rowText s indented r) := by
  have hplain : (rowText s indented r).plain.toList = lead s indented r ++ shown r.segments := by
    rw [StyledText.toList_plain, rowText, List.flatMap_append, visible_leader, flatMap_visible]
  have htext : r.text.toList.filter (!Piece.isDropped ·) = shown r.segments := by
    rw [Row.text, Segment.toList_join_text]
    rfl
  refine ⟨?_, ?_, ?_, ?_, ?_, ?_⟩
  · rw [hplain, htext]
  · exact StyledText.pairwise_spansFrom 0 _
  · intro sp hsp
    obtain ⟨-, hle, hstop⟩ := StyledText.bounds_of_mem_spansFrom hsp
    refine ⟨hle, ?_⟩
    rwa [← StyledText.toList_plain, Nat.zero_add, String.length_toList] at hstop
  · rw [StyledText.spans, rowText, StyledText.spansFrom_append, spansFrom_leader, visible_leader,
      Nat.zero_add, spansFrom_segments]
  · intro i g hg found
    refine ⟨isSome_segmentSpan?_iff hg, fun sp hsp => ⟨?_, ?_⟩⟩
    · exact style_of_segmentSpan? hg hsp
    · rw [hplain, under_segmentSpan? hg hsp]
      simp [shown]
  · intro hs
    rw [hplain, map_under_highlightSpans hs, filterMap_shownHighlight?]
    rfl

/-- A row is laid out with every style on the characters of its own segment, alone as well as
among the lines of an outline, where the rows stand in their order. -/
theorem rowText_spans (s : Settings) :
    (∀ indented r, Shows s indented r (rowText s indented r)) ∧
      ∀ rows : List Row, ∃ ls : List Line, lines s rows = ls.map (Line.styled s) ∧
        ls.filterMap Line.row? = rows ∧
        ∀ r, Line.row r ∈ ls → Shows s true r ((Line.row r).styled s) := by
  refine ⟨shows_rowText s, fun rows => ?_⟩
  exact ⟨order rows, lines_eq_map s rows, filterMap_row?_orderFrom [] rows,
    fun r _ => shows_rowText s true r⟩

/-- A bell in the highlight is not heard in its span, nor does the empty segment move the next. -/
theorem rowText_spans_bell :
    let s := Settings.ofDefaults {}
    let r : Row := {
      depth := 1
      segments := [{ text := "a\x07b", role := .name, highlighted := true },
        { text := "", role := .value }, { text := " \x7b" }]
      hasChildren := true
      isOpen := true }
    Text.trim s.highlightStyle ≠ "" ∧
      (highlightSpans s (lead s true r).length r.segments).map
        (·.under (rowText s true r).plain.toList) = [['a', 'b']] := by
  intro s r
  have hs : Text.trim s.highlightStyle ≠ "" := by decide +kernel
  exact ⟨hs, ((rowText_spans s).1 true r).highlights hs⟩

end Layout

end QueryOutline
