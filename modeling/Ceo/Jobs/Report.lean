import Ceo.Jobs.Script

/-!
# Reports at the script

What the schema accepts passes the script's own validation, and the replay
check compares all that a report says.
-/

namespace Ceo.Jobs

open Ceo.Lib

theorem reportInvariants_of_schema {rep : ExecutionReport}
    (h : Guard.All (executionReportSchema rep)) : reportInvariants rep = .ok () := by
  simp only [executionReportSchema, reportFields, reportRefinements, sha256Hex, Guard.all_append,
    Guard.all_cons, Guard.all_nil, beq_iff_eq, and_true] at h
  obtain ⟨⟨⟨⟨⟨hver, -, -⟩, -⟩, hsha⟩, -⟩, hdone, herr, hund, hunv⟩ := h
  have hlen := utf8ByteLength_of_hex64Re hsha
  unfold reportInvariants
  split_ifs with h1 h2 h3 h4 h5 h6
  · exact absurd hver h1
  · exact absurd hlen h2
  · cases he : rep.error <;> simp_all
  · cases hs : rep.executionStatus <;> simp_all
  · cases hs : rep.businessOutcome <;> simp_all
  · simp_all
  · rfl

theorem semMatch_iff (ar : PersistedExecutionReport) (rep : ExecutionReport) :
    semMatch ar rep = true ↔ ar.toExecutionReport = rep := by
  obtain ⟨⟨v, s, b, d, f, u, ⟨t, w⟩, c, e⟩, n⟩ := ar
  obtain ⟨v', s', b', d', f', u', ⟨t', w'⟩, c', e'⟩ := rep
  simp only [semMatch, Bool.and_eq_true, beq_iff_eq, ExecutionReport.mk.injEq,
    ExecutionReportExecutor.mk.injEq]
  tauto

end Ceo.Jobs
