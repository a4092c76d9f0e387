import QueryOutline.Document
import QueryOutline.Proofs.Grammar.Braces
import QueryOutline.Proofs.Token.Scanning

/-!
What the diagnostics report of selection sets. They look at the tokens only, so they take
every brace for one of a selection set. As long as the braces that are read elsewhere are in
balance this tells which sets are closed and which are too deep. A closing brace that is read
as a name or in an argument hides an opening one.
-/

namespace QueryOutline

open Place

namespace Diagnostic

variable {text : String} {ts : List Token} {definitions : Nat} {skipped : List Nat}

theorem nestingTooDeep_mem_collect :
    nestingTooDeep ∈ collect text ts definitions skipped ↔
      maxNestingDepth < (BraceCount.ofTokens ts).deepest := by
  have hlast : nestingTooDeep ∉ ofLastToken ts := by
    unfold ofLastToken
    repeat' split
    all_goals simp
  have hskipped : nestingTooDeep ∉ ofSkipped skipped := by
    cases skipped <;> simp [ofSkipped]
  simp [collect, ofBraces, hlast, hskipped]

theorem braces_of_collect_eq_nil (h : collect text ts definitions skipped = []) :
    braces ts = 0 := by
  simp only [collect, ofBraces, List.append_eq_nil_iff] at h
  obtain ⟨⟨⟨-, hbalance, -⟩, -⟩, -⟩ := h
  rw [← BraceCount.balance_ofTokens]
  simpa using hbalance

/-- When there is a definition, the text itself does not matter. -/
theorem collect_of_definitions (h : definitions ≠ 0) :
    collect text ts definitions skipped = collect "" ts definitions skipped := by
  simp [collect, h]

end Diagnostic

namespace Document

/-- In a document that nothing is reported about, the selection sets are all closed just in
case the braces that belong to none of them are in balance. -/
theorem closed_iff_of_success (text : String) :
    ∃ steps, next^[steps] (start (tokenize text)) = start [] ∧
      ((parse text).success = true →
        ((∀ i, ¬ (next^[i] (start (tokenize text))).RunsOut) ↔
          braces ((start (tokenize text)).elsewhere steps) = 0)) := by
  obtain ⟨steps, hend⟩ := comes_end (tokenize text)
  refine ⟨steps, hend, fun hsuccess => ?_⟩
  have hbalance : braces (tokenize text) = 0 :=
    Diagnostic.braces_of_collect_eq_nil (List.isEmpty_iff.mp hsuccess)
  have hwalk := weight_walk (start (tokenize text)) steps
  rw [hend, weight_start, weight_start, hbalance, braces_nil] at hwalk
  rw [forall_not_runsOut_iff hend]
  omega

theorem closed_iff_of_success_field :
    let text := "\x7b user \x7d"
    (parse text).success = true ∧ ∃ steps, next^[steps] (start (tokenize text)) = start [] ∧
      ((∀ i, ¬ (next^[i] (start (tokenize text))).RunsOut) ↔
        braces ((start (tokenize text)).elsewhere steps) = 0) := by
  intro text
  have hsuccess : (parse text).success = true := by decide +kernel
  obtain ⟨steps, hend, hclosed⟩ := closed_iff_of_success text
  exact ⟨hsuccess, steps, hend, hclosed hsuccess⟩

/-- A closing bracket that opens nothing keeps the value of an argument open, and the next
definition goes into the value with both of its braces. -/
theorem success_of_swallowed_definition :
    (parse "\x7b a(x: 1]) \x7d query B \x7b c \x7d").success = true ∧
      (next^[4] (start (tokenize "\x7b a(x: 1]) \x7d query B \x7b c \x7d"))).RunsOut := by
  decide +kernel

/-- At a selection set that is too deep the diagnostics count its depth and the braces read
elsewhere. If those do not bring the count down, what is collapsed there is reported. -/
theorem nestingTooDeep_of_collapsed {text : String} {steps depth : Nat} {ts : List Token}
    (hset : next^[steps] (start (tokenize text)) = ⟨.before depth, "\x7b" :: ts⟩)
    (hdepth : maxNestingDepth ≤ depth) :
    ∃ read, tokenize text = read ++ "\x7b" :: ts ∧
      braces read = depth + braces ((start (tokenize text)).elsewhere steps) ∧
      (0 ≤ braces ((start (tokenize text)).elsewhere steps) →
        .nestingTooDeep ∈ (parse text).diagnostics ∧ (parse text).success = false) := by
  obtain ⟨read, hread, hcount⟩ := exists_read hset (by simp)
  refine ⟨read, hread, hcount, fun hstrays => ?_⟩
  have hopen : maxNestingDepth ≤ braces read := by
    rw [hcount, Stage.openBraces]
    omega
  have hmem : .nestingTooDeep ∈ (parse text).diagnostics := by
    refine Diagnostic.nestingTooDeep_mem_collect.mpr ?_
    exact BraceCount.lt_deepest_ofTokens_iff.mpr ⟨read, ts, hread, hopen⟩
  exact ⟨hmem, List.isEmpty_eq_false_iff_exists_mem.mpr ⟨_, hmem⟩⟩

theorem nestingTooDeep_of_collapsed_fields :
    let text := String.join (List.replicate 129 "\x7b a ")
    next^[257] (start (tokenize text)) = ⟨.before 128, ["\x7b", "a"]⟩ ∧
      .nestingTooDeep ∈ (parse text).diagnostics ∧ (parse text).success = false := by
  intro text
  have htokens : tokenize text = (List.replicate 129 ["\x7b", "a"]).flatten :=
    Token.tokenize_join_replicate ⟨by decide +kernel, by decide +kernel⟩ (by decide +kernel) 129
  have hset : next^[257] (start (tokenize text)) = ⟨.before 128, ["\x7b", "a"]⟩ := by
    rw [htokens]
    decide +kernel
  obtain ⟨read, -, -, hreported⟩ := nestingTooDeep_of_collapsed hset (Nat.le_refl 128)
  refine ⟨hset, hreported ?_⟩
  rw [htokens]
  decide +kernel

/-- Fields that take closing braces for their names. With each of them the count goes back to
nothing, and the walk one set deeper. -/
theorem collapsed_unnoticed :
    let text := String.join (List.replicate 129 "\x7ba:\x7d")
    next^[257] (start (tokenize text)) = ⟨.before 128, ["\x7b", "a", ":", "\x7d"]⟩ ∧
      .nestingTooDeep ∉ (parse text).diagnostics ∧ (parse text).success = true := by
  intro text
  have htokens : tokenize text = (List.replicate 129 ["\x7b", "a", ":", "\x7d"]).flatten :=
    Token.tokenize_join_replicate ⟨by decide +kernel, by decide +kernel⟩ (by decide +kernel) 129
  have hnothing : (parse text).diagnostics = [] := by
    rw [parse, htokens]
    dsimp only
    rw [Diagnostic.collect_of_definitions (by decide +kernel)]
    decide +kernel
  refine ⟨?_, by simp [hnothing], by simp [success, hnothing]⟩
  rw [htokens]
  decide +kernel

end Document

end QueryOutline
