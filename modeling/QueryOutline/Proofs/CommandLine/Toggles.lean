import Mathlib.Algebra.Ring.Parity
import QueryOutline.CommandLine.Run

/-!
Nodes toggled one after the other. Each toggle looks at what the ones before it left and writes
an entry of its own, so that two orders leave different tables. What can be seen of a table is
how often each path was toggled, up to pairs. The rows of a document depend on nothing else, and
so does what a run shows.
-/

namespace QueryOutline

/-- Every path occurs an odd number of times in both lists or in neither. -/
def Path.SameParity (ps qs : List Path) : Prop :=
  ∀ path, Odd (ps.count path) ↔ Odd (qs.count path)

namespace Path.SameParity

variable {ps qs : List Path}

theorem of_perm (h : ps.Perm qs) : SameParity ps qs := by
  intro path
  rw [h.count_eq]

theorem remove_pair (path : Path) (as bs cs : List Path) :
    SameParity (as ++ path :: (bs ++ path :: cs)) (as ++ (bs ++ cs)) := by
  intro other
  simp only [List.count_append, List.count_cons]
  split
  · have hcount : as.count other + (bs.count other + (cs.count other + 1) + 1) =
        as.count other + (bs.count other + cs.count other) + 2 := by omega
    rw [hcount, Nat.odd_add, iff_true_right even_two]
  · rfl

end Path.SameParity

open QueryOutline.Path (SameParity)

namespace Overrides

def toggleAll (o : Overrides) (t : Toolbar) (paths : List Path) : Overrides :=
  paths.foldl (fun o path => o.toggle t path) o

variable {t : Toolbar} {paths others : List Path}

theorem isOpen_toggle (o : Overrides) (t : Toolbar) (path other : Path) :
    (o.toggle t path).isOpen t other = if path = other then !o.isOpen t other
      else o.isOpen t other := by
  split
  · next h => rw [h, isOpen_toggle_self]
  · next h => exact o.isOpen_toggle_of_ne t (Ne.symm h)

theorem isOpen_toggleAll (o : Overrides) (t : Toolbar) (paths : List Path) (path : Path) :
    (o.toggleAll t paths).isOpen t path =
      if Odd (paths.count path) then !o.isOpen t path else o.isOpen t path := by
  induction paths generalizing o with
  | nil => rfl
  | cons first paths ih =>
      have hrest : (o.toggleAll t (first :: paths)).isOpen t path =
          ((o.toggle t first).toggleAll t paths).isOpen t path := rfl
      rw [hrest, ih, isOpen_toggle, List.count_cons]
      by_cases hfirst : first = path
      · simp only [hfirst, beq_self_eq_true, if_true, Nat.odd_add_one]
        split <;> simp
      · simp [hfirst]

theorem isOpen_toggleAll_congr (o : Overrides) (h : SameParity paths others) :
    (o.toggleAll t paths).isOpen t = (o.toggleAll t others).isOpen t := by
  funext path
  simp only [isOpen_toggleAll, h path]

/-- Of the toolbar only the generation matters. -/
theorem isOpen_congr_generation (o : Overrides) {u : Toolbar}
    (h : u.generation = t.generation) : o.isOpen u = o.isOpen t := by
  funext path
  simp only [isOpen, reconcile, Toolbar.defaultOpen, h]

end Overrides

theorem Row.ofForest_toggleAll_congr {t : Toolbar} {paths others : List Path} (f : Forest Head)
    (o : Overrides) (term : Option String) (h : SameParity paths others) :
    ofForest f t (o.toggleAll t paths) term = ofForest f t (o.toggleAll t others) term := by
  rw [ofForest, ofForest, o.isOpen_toggleAll_congr h]

namespace CommandLine

/-! What a run shows. -/

/-- Reports of runs that show the same, whatever they log. -/
structure Report.Alike (verbose : Bool) (r s : Report) : Prop where
  out : r.out = s.out
  exitCode : r.exitCode = s.exitCode
  failure : r.failure = s.failure
  err : verbose = false → r.err = s.err

theorem Report.Alike.refl (verbose : Bool) (r : Report) : r.Alike verbose r :=
  ⟨rfl, rfl, rfl, fun _ => rfl⟩

/-- The same actions come before two others. -/
theorem Report.Alike.after {α : Type} {verbose : Bool} {k l : α → Action} (x : StateM Report α)
    (h : ∀ a r, ((k a).run r).2.Alike verbose ((l a).run r).2) (r : Report) :
    ((x >>= k).run r).2.Alike verbose ((x >>= l).run r).2 :=
  h (x.run r).1 (x.run r).2

def Report.logged (r : Report) (text : String) : Report :=
  { r with err := r.err ++ text }

/-- Actions that do nothing to a report but log, and nothing at all unless asked to. -/
def Logs {α : Type} (verbose : Bool) (x : StateM Report α) (a : α) : Prop :=
  ∃ text, (verbose = false → text = "") ∧ ∀ r, x.run r = (a, r.logged text)

namespace Logs

variable {α β : Type} {verbose : Bool}

theorem pure (verbose : Bool) (a : α) : Logs verbose (Pure.pure a) a :=
  ⟨"", fun _ => rfl, fun r => by rw [Report.logged, String.append_empty]; rfl⟩

theorem bind {x : StateM Report α} {a : α} {k : α → StateM Report β} {b : β}
    (hx : Logs verbose x a) (hk : Logs verbose (k a) b) : Logs verbose (x >>= k) b := by
  obtain ⟨first, hfirst, hx⟩ := hx
  obtain ⟨second, hsecond, hk⟩ := hk
  refine ⟨first ++ second, fun h => by rw [hfirst h, hsecond h, String.empty_append], fun r => ?_⟩
  rw [StateT.run_bind, hx]
  refine (hk (r.logged first)).trans ?_
  rw [Report.logged, Report.logged, String.append_assoc]
  rfl

theorem line (verbose : Bool) (p : Part) (message : String) :
    Logs verbose (Log.line verbose p message) () := by
  cases verbose with
  | false => exact pure false ()
  | true => exact ⟨_, by simp, fun r => rfl⟩

theorem alike {x y : StateM Report α} {a b : α} {k l : α → Action} (hx : Logs verbose x a)
    (hy : Logs verbose y b)
    (h : ∀ r s, r.Alike verbose s → ((k a).run r).2.Alike verbose ((l b).run s).2) {r s : Report}
    (hrs : r.Alike verbose s) : ((x >>= k).run r).2.Alike verbose ((y >>= l).run s).2 := by
  obtain ⟨first, hfirst, hx⟩ := hx
  obtain ⟨second, hsecond, hy⟩ := hy
  rw [StateT.run_bind, StateT.run_bind, hx, hy]
  refine h _ _ ⟨hrs.out, hrs.exitCode, hrs.failure, fun hquiet => ?_⟩
  rw [Report.logged, Report.logged, hfirst hquiet, hsecond hquiet, hrs.err hquiet]

end Logs

theorem Arguments.has_congr {a b : Arguments} {o : Opt} (h : a.values o = b.values o) :
    a.has o = b.has o := by
  have hhas (a : Arguments) : a.has o = true ↔ a.values o ≠ [] := by
    simp [has, values, List.filter_eq_nil_iff]
  rw [Bool.eq_iff_iff, hhas, hhas, h]

namespace Run

variable {s : Setup} {a b : Arguments} {ts us : List Path}

theorem logs_toggleAll (verbose : Bool) (paths : List Path) (v : Viewer) :
    Logs verbose (toggleAll verbose paths v)
      { v with overrides := v.overrides.toggleAll v.toolbar paths } := by
  induction paths generalizing v with
  | nil => exact Logs.pure verbose v
  | cons path paths ih => exact (Logs.line verbose _ _).bind (ih (v.toggle path))

theorem logs_gestureAll (verbose : Bool) (gestures : List Toolbar.Gesture) (v : Viewer) :
    Logs verbose (gestureAll verbose gestures v)
      { v with toolbar := v.toolbar.applyAll gestures } := by
  induction gestures generalizing v with
  | nil => exact Logs.pure verbose v
  | cons g gestures ih => exact (Logs.line verbose _ _).bind (ih (v.gesture g))

/-- A search that begins after the toggles leaves the toolbar in the same generation. -/
theorem rows_toggleAll_congr (v : Viewer) (h : SameParity ts us) {t : Toolbar}
    (ht : t.generation = v.toolbar.generation) :
    Viewer.rows { v with overrides := v.overrides.toggleAll v.toolbar ts, toolbar := t } =
      Viewer.rows { v with overrides := v.overrides.toggleAll v.toolbar us, toolbar := t } := by
  have hopen : (v.overrides.toggleAll v.toolbar ts).isOpen t =
      (v.overrides.toggleAll v.toolbar us).isOpen t := by
    rw [Overrides.isOpen_congr_generation _ ht, Overrides.isOpen_congr_generation _ ht,
      v.overrides.isOpen_toggleAll_congr h]
  rw [Viewer.rows, Viewer.rows, Row.ofForest, Row.ofForest, hopen]

theorem showOutline_alike (hsame : ∀ o, o ≠ .toggle → a.values o = b.values o)
    (h : SameParity ts us) (text : String) (r : Report) :
    ((showOutline s a ts text).run r).2.Alike s.verbose ((showOutline s b us text).run r).2 := by
  have hcollapse : a.has .collapseAll = b.has .collapseAll :=
    Arguments.has_congr (hsame .collapseAll (by decide))
  have htree : a.has .tree = b.has .tree := Arguments.has_congr (hsame .tree (by decide))
  have hterm : a.value? .search = b.value? .search :=
    congrArg List.getLast? (hsame .search (by decide))
  simp only [showOutline, hcollapse, htree, hterm]
  refine Report.Alike.after _ (fun _ r => ?_) r
  split
  · exact .refl _ _
  · refine Report.Alike.after _ (fun v r => ?_) r
    -- only here do the two runs part, and what they log is all that sets them apart
    refine (logs_toggleAll _ ts v).alike (logs_toggleAll _ us v) (fun r r' hr => ?_) (.refl _ r)
    refine (logs_gestureAll _ _ _).alike (logs_gestureAll _ _ _) (fun r r' hr => ?_) hr
    have hrows := rows_toggleAll_congr v h (t := v.toolbar.applyAll
      (if (b.value? .search).getD "" = "" then []
        else [.toggleSearch, .setTerm ((b.value? .search).getD "")])) (by split <;> rfl)
    refine ⟨?_, hr.exitCode, hr.failure, hr.err⟩
    exact congrArg₂ (fun out rows => out ++ Console.printOutline s.settings (b.has .tree)
      Console.defaultLabel rows) hr.out hrows

theorem withDocument_alike (source : Source) {use other : String → Action}
    (h : ∀ text r, ((use text).run r).2.Alike s.verbose ((other text).run r).2) (r : Report) :
    ((withDocument s source use).run r).2.Alike s.verbose
      ((withDocument s source other).run r).2 := by
  simp only [withDocument]
  split
  · exact .refl _ _
  · split
    · refine Report.Alike.after _ (fun _ r => ?_) r
      exact Report.Alike.after _ (fun _ => h _) r
    · exact Report.Alike.after _ (fun _ => h _) r

/-- Two runs of the command whose options differ in the toggles show the same if they toggle
the same nodes an odd number of times. -/
theorem command_show_alike {w : Surroundings} {arguments others : List String} {source : Source}
    (ha : readArguments (Scope.options (some .show)) true arguments = .ok a)
    (hb : readArguments (Scope.options (some .show)) true others = .ok b)
    (hsame : ∀ o, o ≠ .toggle → a.values o = b.values o)
    (hts : operands w a = .ok (ts, source)) (hus : operands w b = .ok (us, source))
    (h : SameParity ts us) (r : Report) :
    ((command w s .show arguments).run r).2.Alike s.verbose
      ((command w s .show others).run r).2 := by
  have hhelp : a.has .help = b.has .help := Arguments.has_congr (hsame .help (by decide))
  simp only [command, ha, hb, hts, hus, hhelp]
  split
  · exact .refl _ _
  · exact withDocument_alike source (fun text => showOutline_alike hsame h text) r

end Run

/-- Toggled nodes are open as before, negated if toggled an odd number of times. So neither the
order of toggles nor two toggles of one node are seen in the rows of a document, and the runs of
the program that show it print the same. -/
theorem toggles_parity :
    (∀ (o : Overrides) (t : Toolbar) (ts : List Path) (path : Path),
      (o.toggleAll t ts).isOpen t path =
        if Odd (ts.count path) then !o.isOpen t path else o.isOpen t path) ∧
    (∀ (f : Forest Head) (t : Toolbar) (o : Overrides) (term : Option String) (ts us : List Path),
      ts.Perm us →
        Row.ofForest f t (o.toggleAll t ts) term = Row.ofForest f t (o.toggleAll t us) term) ∧
    (∀ (f : Forest Head) (t : Toolbar) (o : Overrides) (term : Option String) (path : Path)
      (as bs cs : List Path),
        Row.ofForest f t (o.toggleAll t (as ++ path :: (bs ++ path :: cs))) term =
          Row.ofForest f t (o.toggleAll t (as ++ (bs ++ cs))) term) ∧
    ∀ (w : Surroundings) (s : Setup) (arguments others : List String) (a b : Arguments)
      (ts us : List Path) (source : Source) (r : Report),
      readArguments (Scope.options (some .show)) true arguments = .ok a →
      readArguments (Scope.options (some .show)) true others = .ok b →
      (∀ o, o ≠ .toggle → a.values o = b.values o) →
      Run.operands w a = .ok (ts, source) → Run.operands w b = .ok (us, source) →
      SameParity ts us →
        ((Run.command w s .show arguments).run r).2.Alike s.verbose
          ((Run.command w s .show others).run r).2 := by
  refine ⟨Overrides.isOpen_toggleAll, ?_, ?_, ?_⟩
  · intro f t o term ts us h
    exact Row.ofForest_toggleAll_congr f o term (.of_perm h)
  · intro f t o term path as bs cs
    exact Row.ofForest_toggleAll_congr f o term (.remove_pair path as bs cs)
  · intro w s arguments others a b ts us source r ha hb hsame hts hus h
    exact Run.command_show_alike ha hb hsame hts hus h r

/-- A node toggled, one below it, and the first one again. -/
theorem toggles_parity_of_pair :
    let w : Surroundings := { entry := fun _ => .missing, input := [0x7B, 0x61, 0x7D] }
    ((Run.command w ⟨false, .ofDefaults {}⟩ .show ["-t", "0", "-t", "0.0", "-t", "0"]).run {}).2.Alike
      false ((Run.command w ⟨false, .ofDefaults {}⟩ .show ["-t", "0.0"]).run {}).2 := by
  intro w
  obtain ⟨-, -, -, hshow⟩ := toggles_parity
  refine hshow w ⟨false, .ofDefaults {}⟩ _ _
    { options := [(.toggle, "0"), (.toggle, "0.0"), (.toggle, "0")] }
    { options := [(.toggle, "0.0")] } [[0], [0, 0], [0]] [[0, 0]] ⟨"<stdin>", w.input⟩ {}
    (by decide +kernel) (by decide +kernel) ?_ (by rfl) (by rfl)
    (Path.SameParity.remove_pair [0] [] [[0, 0]] [])
  intro o ho
  cases o with
  | toggle => contradiction
  | _ => rfl

end CommandLine

end QueryOutline
