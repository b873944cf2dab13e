import QueryConsole.Proofs.Adhoc.Rewriting
import QueryConsole.Statement.Explain

namespace QueryConsole

open Adhoc (withoutTerminators kept BeginsForbidden Rewriting)

theorem Explain.compile_eq_ok {mode : ExplainMode} {query : String} {s : Statement} :
    Explain.compile mode query = .ok s ↔
      withoutTerminators query ≠ "" ∧ s = ⟨mode.opening ++ kept (withoutTerminators query), ∅⟩ := by
  rw [Explain.compile]
  simp only [← kept.eq_1]
  by_cases hempty : withoutTerminators query = ""
  · have hkept : kept "" = "" := by decide
    rw [hempty, hkept]
    simp
  · have hkept : kept (withoutTerminators query) ≠ "" :=
      Adhoc.kept_ne_empty hempty (Adhoc.isStripped_withoutTerminators query).head
    rw [if_neg (by simpa using hkept), and_iff_right hempty, Except.ok.injEq, eq_comm]

namespace Adhoc

variable {query : String} {limit : UInt64}

theorem Rewriting.isBlankText_body {statement : String} (r : Rewriting statement) :
    Text.isBlankText r.body = false := by
  rw [Bool.eq_false_iff]
  intro hblank
  cases hlast : r.body.toList.getLast? with
  | none => exact r.body_ne (String.toList_inj.mp (List.getLast?_eq_none_iff.mp hlast))
  | some c =>
    have hc := r.body_last c hlast
    rw [List.all_eq_true.mp hblank c (List.mem_of_getLast? hlast)] at hc
    cases hc

theorem beginsForbidden_trim :
    BeginsForbidden (Text.trim query) ↔ BeginsForbidden (withoutTerminators query) := by
  obtain ⟨dropped, htrim, hdropped⟩ :=
    Text.exists_dropEndWhile_append isTerminator (Text.trim query).toList
  have hstatement : (withoutTerminators query).toList =
      Text.dropEndWhile isTerminator (Text.trim query).toList := by
    rw [withoutTerminators, String.toList_ofList]
    rfl
  rw [← hstatement] at htrim
  constructor
  · intro h
    cases dropped with
    | nil =>
      rw [List.append_nil, String.toList_inj] at htrim
      rwa [← htrim]
    | cons c rest =>
      rw [List.forall_mem_cons] at hdropped
      exact h.of_append_break (isWordChar_eq_false_of_isTerminator hdropped.1) htrim
  · intro h
    exact beginsForbidden_of_isPrefix h ⟨dropped, htrim.symm⟩

theorem compile_eq_ok_result (hne : withoutTerminators query ≠ "") (hlimit : 1 ≤ limit) :
    compile query limit = .ok ((rewritingOf query hne).result limit) ↔
      ¬ BeginsForbidden (Text.trim query) := by
  have hpositive : limit ≠ 0 := by
    rintro rfl
    exact absurd hlimit (by decide)
  rw [beginsForbidden_trim, compile_eq_ok, result_rewritingOf]
  simp [hne, hpositive]

end Adhoc

/-- A query that can be run can be explained, and one that can be explained can be run unless it
begins with a forbidden keyword.  What is explained is the body of what is run. -/
theorem compile_explains (query : String) {limit : UInt64} (mode : ExplainMode)
    (hlimit : 1 ≤ limit) :
    (∀ s, Adhoc.compile query limit = .ok s →
      ∃ r : Rewriting (withoutTerminators query), s = r.result limit ∧
        Text.isBlankText r.body = false ∧
        Explain.compile mode query = .ok ⟨mode.opening ++ r.body, ∅⟩) ∧
    ∀ e, Explain.compile mode query = .ok e →
      ∃ r : Rewriting (withoutTerminators query), e = ⟨mode.opening ++ r.body, ∅⟩ ∧
        Text.isBlankText r.body = false ∧
        (Adhoc.compile query limit = .ok (r.result limit) ↔
          ¬ BeginsForbidden (Text.trim query)) := by
  constructor
  · intro s hs
    obtain ⟨⟨hne, -, -⟩, hresult⟩ := Adhoc.compile_eq_ok.mp hs
    refine ⟨Adhoc.rewritingOf query hne, ?_, Rewriting.isBlankText_body _, ?_⟩
    · rw [hresult, Adhoc.result_rewritingOf]
    · rw [Adhoc.body_rewritingOf, Explain.compile_eq_ok]
      exact ⟨hne, rfl⟩
  · intro e he
    obtain ⟨hne, heq⟩ := Explain.compile_eq_ok.mp he
    refine ⟨Adhoc.rewritingOf query hne, ?_, Rewriting.isBlankText_body _,
      Adhoc.compile_eq_ok_result hne hlimit⟩
    rw [heq, Adhoc.body_rewritingOf]

theorem compile_explains_formatted :
    (1 : UInt64) ≤ 5 ∧
    (∃ r : Rewriting (withoutTerminators " SELECT 1 format CSV; "),
      Adhoc.compile " SELECT 1 format CSV; " 5 = .ok (r.result 5) ∧
      Explain.compile .tree " SELECT 1 format CSV; " =
        .ok ⟨ExplainMode.tree.opening ++ r.body, ∅⟩) ∧
    ∃ r : Rewriting (withoutTerminators "drop TABLE t"),
      Explain.compile .plan "drop TABLE t" = .ok ⟨ExplainMode.plan.opening ++ r.body, ∅⟩ ∧
      Adhoc.compile "drop TABLE t" 5 ≠ .ok (r.result 5) := by
  have hlimit : (1 : UInt64) ≤ 5 := by decide
  refine ⟨hlimit, ?_, ?_⟩
  · have hrun : Adhoc.compile " SELECT 1 format CSV; " 5 =
        .ok ⟨"SELECT 1 LIMIT \x7blimit:UInt64\x7d FORMAT JSONEachRow",
          ⟨[⟨"limit", .uint64 5⟩]⟩⟩ := by
      decide +kernel
    obtain ⟨r, hresult, -, hexplain⟩ :=
      (compile_explains " SELECT 1 format CSV; " .tree hlimit).1 _ hrun
    exact ⟨r, hresult ▸ hrun, hexplain⟩
  · have hexplain : Explain.compile .plan "drop TABLE t" =
        .ok ⟨"EXPLAIN PLAN drop TABLE t", ∅⟩ := by
      decide +kernel
    have hforbidden : BeginsForbidden (Text.trim "drop TABLE t") :=
      Adhoc.beginsForbidden_iff.mpr (by decide +kernel)
    obtain ⟨r, he, -, hrun⟩ := (compile_explains "drop TABLE t" .plan hlimit).2 _ hexplain
    exact ⟨r, he ▸ hexplain, fun h => hrun.mp h hforbidden⟩

end QueryConsole
