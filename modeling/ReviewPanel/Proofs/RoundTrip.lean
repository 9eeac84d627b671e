import ReviewPanel.Proofs.RunState
import ReviewPanel.Synthesis.Report

/-!
# Documents make the round trip

Five kinds of documents are kept: the state of a run, the findings of a role, the verdict, the reference
to it, and the report of generated tests.  Each is read back from its text in either layout and from its
generic value, in which the members of an object stand in the order of their names.

Nothing is asked of a text, a label or an optional part.  Numbers have to have 64 bits and timestamps
have to be in the calendar, because the documents cannot hold others.

The reason for which a finding gave no test is the one document whose order matters to its reader: its
generic value gives the detail before the kind that explains it, so the detail is kept as it is until
the kind is known.

## Main statements

* `Finding.recovers_toValue`, `Verdict.recovers_toValue`, `SkipReason.recovers_toValue`,
  `SynthesisReport.recovers_toValue` : one for each document; those of a run stand beside `RunState`.
* `documents_roundTrip` : **every document makes the round trip.**
-/

namespace ReviewPanel

open Json (Value Reader Document)
open Json.Fields (Recovers)
open Json.Document (ofValue ofMembers)

/-! ### Findings and verdicts -/

namespace Finding

theorem recovers_toValue (f : Finding) : reader.Recovers f.toValue f := by
  obtain ⟨id, severity, location, classification, rationale, remediation, reference⟩ := f
  have htext : ∀ {x : Option String}, ∀ s ∈ x, Reader.string.Recovers (.str s) s ∧ Value.str s ≠ .null :=
    fun s _ => ⟨Reader.recovers_string s, Value.noConfusion⟩
  refine Reader.recovers_record _ (by decide) ?_ ?_ ?_
  · exact Recovers.build _ _
      |>.required rfl (Reader.recovers_string _)
      |>.required rfl (Reader.recovers_word _)
      |>.required rfl (Reader.recovers_string _)
      |>.required rfl (Reader.recovers_word _)
      |>.required rfl (Reader.recovers_string _)
      |>.unless_none (by cases remediation <;> cases reference <;> rfl) htext
      |>.unless_none (by cases remediation <;> cases reference <;> rfl) htext
  · cases remediation <;> cases reference <;> simp [Value.optional]
  · cases remediation <;> cases reference <;> simp [Value.optional, fields]

theorem recovers_listValue (fs : List Finding) : (Reader.list reader).Recovers (listValue fs) fs :=
  Reader.recovers_list fun f _ => f.recovers_toValue

end Finding

namespace Verdict

/-- The document can hold the verdict: its counts have 64 bits. -/
structure Storable (v : Verdict) : Prop where
  severities : ∀ s, ∀ n ∈ v.countsBySeverity.get? s, n < wordBound
  classifications : ∀ c, ∀ n ∈ v.countsByClassification.get? c, n < wordBound
  tally : ∀ c, ∀ t ∈ v.tally.get? c, ∀ s, ∀ n ∈ t.get? s, n < wordBound
  total : v.totalFindings < wordBound

instance (v : Verdict) : Decidable v.Storable :=
  decidable_of_iff
    ((∀ n ∈ v.countsBySeverity.values, n < wordBound) ∧
      (∀ n ∈ v.countsByClassification.values, n < wordBound) ∧
      (∀ t ∈ v.tally.values, ∀ n ∈ t.values, n < wordBound) ∧ v.totalFindings < wordBound)
    ⟨fun h => ⟨fun s n hn => h.1 n (Table.mem_values.2 ⟨s, hn⟩),
        fun c n hn => h.2.1 n (Table.mem_values.2 ⟨c, hn⟩),
        fun c t ht s n hn => h.2.2.1 t (Table.mem_values.2 ⟨c, ht⟩) n (Table.mem_values.2 ⟨s, hn⟩),
        h.2.2.2⟩,
      fun h => ⟨fun n hn => (Table.mem_values.1 hn).elim fun s hs => h.severities s n hs,
        fun n hn => (Table.mem_values.1 hn).elim fun c hc => h.classifications c n hc,
        fun t ht n hn => (Table.mem_values.1 ht).elim fun c hc =>
          (Table.mem_values.1 hn).elim fun s hs => h.tally c t hc s n hs,
        h.total⟩⟩

theorem recovers_toValue {v : Verdict} (h : v.Storable) : reader.Recovers v.toValue v := by
  obtain ⟨runId, recommendation, severities, classifications, tally, total, blockers, consulted,
    missing⟩ := v
  have hseverities := Reader.recovers_table fun s n hn => Reader.recovers_count (h.severities s n hn)
  have hclassifications := Reader.recovers_table fun c n hn =>
    Reader.recovers_count (h.classifications c n hn)
  have htally := Reader.recovers_table fun c t ht =>
    Reader.recovers_table fun s n hn => Reader.recovers_count (h.tally c t ht s n hn)
  refine Reader.recovers_record _ (by decide) ?_ (by simp) (by simp [fields])
  exact Recovers.build _ _
    |>.required rfl (Reader.recovers_string _)
    |>.required rfl (Reader.recovers_word _)
    |>.required rfl hseverities
    |>.required rfl hclassifications
    |>.required rfl htally
    |>.required rfl (Reader.recovers_count h.total)
    |>.required rfl (Finding.recovers_listValue _)
    |>.required rfl (Reader.recovers_words _)
    |>.required rfl (Reader.recovers_words _)

end Verdict

/-! ### Reports -/

theorem GeneratedTest.recovers_toValue (t : GeneratedTest) :
    GeneratedTest.reader.Recovers t.toValue t := by
  obtain ⟨sourceId, role, category, suite, testName, description, polarity, citation, failureMessage,
    severity⟩ := t
  refine Reader.recovers_record _ (by decide) ?_ (by simp) (by simp [GeneratedTest.fields])
  exact Recovers.build _ _
    |>.required rfl (Reader.recovers_string _)
    |>.required rfl (Reader.recovers_word _)
    |>.required rfl (Reader.recovers_word _)
    |>.required rfl (Reader.recovers_string _)
    |>.required rfl (Reader.recovers_string _)
    |>.required rfl (Reader.recovers_string _)
    |>.required rfl (Reader.recovers_word _)
    |>.required rfl (Reader.recovers_string _)
    |>.required rfl (Reader.recovers_string _)
    |>.required rfl (Reader.recovers_word _)

namespace SkipReason

/-- A kind without detail is enough. -/
theorem recovers_kind {r : SkipReason} (h : finish (.kindOnly r.kind) = .ok r) :
    reader.Recovers (.obj [("kind", .word r.kind)]) r := by
  have hreads : reader.Reads (.obj [("kind", .word r.kind)]) r := fun o => by
    have hkind := Reader.reads_word r.kind o
    simp only [ofValue, ofMembers, reader, putAll, Document.need, putKind, bind, Except.bind, pure,
      Except.pure, if_true, hkind, Document.checkClose, h]
  exact ⟨hreads, hreads, by simp [Value.Numbers, Value.MemberNumbers, Value.word]⟩

/-- A detail is read once the kind is known; one that comes first is kept until then. -/
theorem recovers_kind_detail (detail : String) :
    reader.Recovers (.obj [("kind", .word SkipKind.malformed), ("detail", .str detail)])
      (.malformed detail) where
  reads := fun _ => rfl
  sorted := fun _ => by
    have horder : "detail" < "kind" := by decide
    have hcanonical : (Value.obj [("kind", .word SkipKind.malformed), ("detail", .str detail)]).canonical =
        .obj [("detail", .str detail), ("kind", .word SkipKind.malformed)] := by
      simp [Value.canonical, Value.canonicalMembers, Value.word, sortEntries, insertEntry, horder]
    rw [hcanonical]
    rfl
  fits := by simp [Value.Numbers, Value.MemberNumbers, Value.word]

theorem recovers_toValue (r : SkipReason) : reader.Recovers r.toValue r := by
  cases r with
  | intentionalPattern => exact recovers_kind rfl
  | falseAlarm => exact recovers_kind rfl
  | malformed detail => exact recovers_kind_detail detail
  | missingPerspective => exact recovers_kind rfl

end SkipReason

theorem SkipEntry.recovers_toValue (e : SkipEntry) : SkipEntry.reader.Recovers e.toValue e := by
  obtain ⟨recordId, role, reason⟩ := e
  refine Reader.recovers_record _ (by decide) ?_ (by simp) (by simp [SkipEntry.fields])
  exact Recovers.build _ _
    |>.required rfl (Reader.recovers_string _)
    |>.required rfl (Reader.recovers_word _)
    |>.required rfl reason.recovers_toValue

theorem SynthesisReport.recovers_toValue (r : SynthesisReport) :
    SynthesisReport.reader.Recovers r.toValue r := by
  obtain ⟨runId, recommendation, tests, skipped, missing⟩ := r
  refine Reader.recovers_record _ (by decide) ?_ (by simp) (by simp [SynthesisReport.fields])
  exact Recovers.build _ _
    |>.required rfl (Reader.recovers_string _)
    |>.required rfl (Reader.recovers_word _)
    |>.required rfl (Reader.recovers_list fun t _ => t.recovers_toValue)
    |>.required rfl (Reader.recovers_list fun e _ => e.recovers_toValue)
    |>.required rfl (Reader.recovers_words _)

/-! ### All documents -/

/-- **Every document makes the round trip**: from its text without blanks, from its indented text and
from its generic value it is read as what was written, and writing that down gives the same texts. -/
theorem documents_roundTrip :
    (∀ s : RunState, s.Storable → RunState.reader.RoundTrips RunState.toValue s) ∧
      (∀ v : Verdict, v.Storable → Verdict.reader.RoundTrips Verdict.toValue v) ∧
      (∀ r : VerdictRef, r.blockerCount < wordBound →
        VerdictRef.reader.RoundTrips VerdictRef.toValue r) ∧
      (∀ fs : List Finding, (Reader.list Finding.reader).RoundTrips Finding.listValue fs) ∧
      ∀ r : SynthesisReport, SynthesisReport.reader.RoundTrips SynthesisReport.toValue r :=
  ⟨fun _ h => (RunState.recovers_toValue h).roundTrips,
    fun _ h => (Verdict.recovers_toValue h).roundTrips,
    fun _ h => (VerdictRef.recovers_toValue h).roundTrips,
    fun fs => (Finding.recovers_listValue fs).roundTrips,
    fun r => r.recovers_toValue.roundTrips⟩

/-- A verdict on one blocking finding whose texts need escapes. -/
def quotedVerdict : Verdict where
  runId := "run \"1\"\n"
  recommendation := .blocked
  countsBySeverity := .ofList [(.blocker, 1), (.warning, 0), (.advisory, 0)]
  countsByClassification := .ofList [(.violation, 1), (.falseAlarm, 18446744073709551615)]
  tally := .ofList [(.violation, .ofList [(.blocker, 1)])]
  totalFindings := 18446744073709551615
  blockers := [⟨"SEC-1", .blocker, "src\\net", .violation, "\x01 é 😀", some "close it", none⟩]
  consulted := [.security]
  missingPerspectives := [.build]

/-- A run with labels and a verdict, begun in the year 0 and ended within a nanosecond of the year
10000. -/
def labelledRun : RunState where
  runId := "run \"1\"\n"
  item := ⟨"task", .ofList [("β", "\t"), ("a", ""), ("", "/")]⟩
  createdAt := ⟨0, 1, 1, 0, 0, 0, 0⟩
  roles := .ofList [
    (.security, ⟨.complete, some ⟨0, 2, 29, 1, 2, 3, 120000000⟩,
      some ⟨9999, 12, 31, 23, 59, 59, 999999999⟩, none⟩),
    (.build, ⟨.failed, none, some ⟨2024, 5, 1, 12, 0, 60, 1⟩, some "exit 1\r\n"⟩)]
  allComplete := true
  revision := 18446744073709551615
  verdict := some quotedVerdict.toRef

theorem documents_roundTrip_labelled :
    (labelledRun.Storable ∧ RunState.reader.RoundTrips RunState.toValue labelledRun) ∧
      (quotedVerdict.Storable ∧ Verdict.reader.RoundTrips Verdict.toValue quotedVerdict) ∧
      quotedVerdict.toRef.blockerCount < wordBound ∧
        VerdictRef.reader.RoundTrips VerdictRef.toValue quotedVerdict.toRef := by
  have hrun : labelledRun.Storable := by decide
  have hverdict : quotedVerdict.Storable := by decide
  have href : quotedVerdict.toRef.blockerCount < wordBound := by decide
  exact ⟨⟨hrun, documents_roundTrip.1 _ hrun⟩, ⟨hverdict, documents_roundTrip.2.1 _ hverdict⟩,
    href, documents_roundTrip.2.2.1 _ href⟩

end ReviewPanel
