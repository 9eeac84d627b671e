import ReviewPanel.Proofs.Json.Recovery
import ReviewPanel.Proofs.Timestamp
import ReviewPanel.RunState

/-!
# The document of a run reads back

Whoever reads the document of a run gets the run itself, provided that its timestamps are in the
calendar and its numbers have 64 bits (`RunState.Storable`).
-/

namespace ReviewPanel

open Json (Value Reader Number)
open Json.Fields (Recovers)

/-- The bound of a number of 64 bits. -/
def wordBound : Nat := 18446744073709551616

theorem fits_of_lt {n : Nat} (h : n < wordBound) : Number.Fits (.int n) := by
  rw [wordBound] at h
  rw [Number.Fits, Json.maxWord]
  omega

theorem Json.Reader.recovers_count {n : Nat} (h : n < wordBound) : count.Recovers (.nat n) n :=
  recovers_naturalBelow _ h (fits_of_lt h)

/-! ### Parts of a run -/

theorem WorkItem.recovers_toValue (w : WorkItem) : WorkItem.reader.Recovers w.toValue w := by
  obtain ⟨reference, labels⟩ := w
  simp only [WorkItem.toValue]
  split_ifs with hlabels
  · have hempty : labels = Dictionary.empty := Dictionary.ext (List.isEmpty_iff.1 hlabels)
    subst hempty
    refine Reader.recovers_record _ (by decide) ?_ (by simp) (by simp [WorkItem.fields])
    exact Recovers.build _ _
      |>.required rfl (Reader.recovers_string _)
      |>.left_out rfl
  · refine Reader.recovers_record _ (by decide) ?_ (by simp) (by simp [WorkItem.fields])
    exact Recovers.build _ _
      |>.required rfl (Reader.recovers_string _)
      |>.defaulted rfl labels.recovers_toValue

/-- The timestamps of a status are in the calendar. -/
def Status.Storable (s : Status) : Prop :=
  (∀ t ∈ s.startedAt, t.Valid) ∧ ∀ t ∈ s.completedAt, t.Valid

instance (s : Status) : Decidable s.Storable := inferInstanceAs (Decidable (_ ∧ _))

theorem Status.recovers_toValue {s : Status} (h : s.Storable) :
    Status.reader.Recovers s.toValue s := by
  obtain ⟨phase, startedAt, completedAt, cause⟩ := s
  have htime : ∀ t : Timestamp, t.toValue ≠ .null := fun _ => Value.noConfusion
  have hstarted := Reader.recovers_ofOption fun t ht =>
    ⟨Timestamp.recovers_toValue (h.1 t ht), htime t⟩
  have hcompleted := Reader.recovers_ofOption fun t ht =>
    ⟨Timestamp.recovers_toValue (h.2 t ht), htime t⟩
  have hcause : (Reader.optional Reader.string).Recovers (.ofOption .str cause) cause :=
    Reader.recovers_ofOption fun c _ => ⟨Reader.recovers_string c, Value.noConfusion⟩
  refine Reader.recovers_record _ (by decide) ?_ (by simp) (by simp [Status.fields])
  exact Recovers.build _ _
    |>.required rfl (Reader.recovers_word _)
    |>.optional rfl hstarted
    |>.optional rfl hcompleted
    |>.optional rfl hcause

theorem VerdictRef.recovers_toValue {r : VerdictRef} (h : r.blockerCount < wordBound) :
    VerdictRef.reader.Recovers r.toValue r := by
  obtain ⟨recommendation, blockerCount, missing, digest⟩ := r
  refine Reader.recovers_record _ (by decide) ?_ (by simp) (by simp [VerdictRef.fields])
  exact Recovers.build _ _
    |>.required rfl (Reader.recovers_word _)
    |>.required rfl (Reader.recovers_count h)
    |>.required rfl (Reader.recovers_words _)
    |>.required rfl (Reader.recovers_string _)

/-! ### Runs -/

namespace RunState

/-- The document can hold the run: timestamps are in the calendar and numbers have 64 bits. -/
structure Storable (s : RunState) : Prop where
  created : s.createdAt.Valid
  roles : ∀ role, ∀ status ∈ s.roles.get? role, status.Storable
  revision : s.revision < wordBound
  blockers : ∀ v ∈ s.verdict, v.blockerCount < wordBound

instance (s : RunState) : Decidable s.Storable :=
  decidable_of_iff
    (s.createdAt.Valid ∧ (∀ role ∈ Role.all, ∀ status ∈ s.roles.get? role, status.Storable) ∧
      s.revision < wordBound ∧ ∀ v ∈ s.verdict, v.blockerCount < wordBound)
    ⟨fun h => ⟨h.1, fun role => h.2.1 role (Enumerated.mem_all role), h.2.2.1, h.2.2.2⟩,
      fun h => ⟨h.created, fun role _ => h.roles role, h.revision, h.blockers⟩⟩

/-- The document of a run, as a text. -/
def document (s : RunState) : List Symbol := Utf8.ofString s.toValue.prettyText

theorem recovers_toValue {s : RunState} (h : s.Storable) : reader.Recovers s.toValue s := by
  obtain ⟨runId, item, createdAt, roles, allComplete, revision, verdict⟩ := s
  have hroles : (Reader.table Status.reader).Recovers (.table Status.toValue roles) roles :=
    Reader.recovers_table fun role status hget => Status.recovers_toValue (h.roles role status hget)
  have hverdict : ∀ v ∈ verdict, VerdictRef.reader.Recovers v.toValue v ∧ v.toValue ≠ .null :=
    fun v hv => ⟨VerdictRef.recovers_toValue (h.blockers v hv), Value.noConfusion⟩
  refine Reader.recovers_record _ (by decide) ?_ ?_ ?_
  · exact Recovers.build _ _
      |>.required rfl (Reader.recovers_string _)
      |>.required rfl item.recovers_toValue
      |>.required rfl (Timestamp.recovers_toValue h.created)
      |>.required rfl hroles
      |>.required rfl (Reader.recovers_boolean _)
      |>.defaulted rfl (Reader.recovers_naturalBelow _ h.revision (fits_of_lt h.revision))
      |>.unless_none (by cases verdict <;> rfl) hverdict
  · cases verdict <;> simp [Value.optional]
  · cases verdict <;> simp [Value.optional, fields]

/-- **The document of a run is read as the run.** -/
theorem runText_document {s : RunState} (h : s.Storable) : reader.runText s.document = .ok s :=
  (recovers_toValue h).roundTrips.pretty

end RunState

/-! ### Documents that cannot hold their run -/

section Whole

open Json.Value

variable {α κ : Type} [Named κ] {f : α → Value}

theorem isWhole_word (k : κ) : (word k).Numbers Number.IsWhole := by
  rw [word, Numbers]
  trivial

theorem isWhole_words (ks : List κ) : (words ks).Numbers Number.IsWhole := by
  rw [words, Numbers, itemNumbers_iff]
  rintro v hv
  obtain ⟨k, -, rfl⟩ := List.mem_map.1 hv
  exact isWhole_word k

theorem isWhole_ofOption (hf : ∀ a, (f a).Numbers Number.IsWhole) (o : Option α) :
    (ofOption f o).Numbers Number.IsWhole := by
  cases o with
  | none => rw [ofOption, Numbers]; trivial
  | some a => exact hf a

theorem isWhole_table (hf : ∀ a, (f a).Numbers Number.IsWhole) (t : Table κ α) :
    (table f t).Numbers Number.IsWhole := by
  rw [table, Numbers, memberNumbers_iff]
  rintro m hm
  obtain ⟨e, -, rfl⟩ := List.mem_map.1 hm
  exact hf e.2

theorem isWhole_str (s : String) : (Value.str s).Numbers Number.IsWhole := by
  rw [Numbers]
  trivial

theorem WorkItem.isWhole_toValue (w : WorkItem) : w.toValue.Numbers Number.IsWhole := by
  have hlabels : w.labels.toValue.Numbers Number.IsWhole := by
    rw [Labels.toValue, Numbers, memberNumbers_iff]
    rintro m hm
    obtain ⟨e, -, rfl⟩ := List.mem_map.1 hm
    exact isWhole_str e.2
  rw [WorkItem.toValue]
  split_ifs <;> simp [Numbers, MemberNumbers, hlabels]

theorem Status.isWhole_toValue (s : Status) : s.toValue.Numbers Number.IsWhole := by
  have htime : ∀ o, (ofOption Timestamp.toValue o).Numbers Number.IsWhole :=
    isWhole_ofOption fun t => isWhole_str _
  rw [Status.toValue, Numbers]
  exact ⟨isWhole_word _, htime _, htime _, isWhole_ofOption isWhole_str _, trivial⟩

theorem VerdictRef.isWhole_toValue (r : VerdictRef) : r.toValue.Numbers Number.IsWhole := by
  rw [VerdictRef.toValue, Numbers]
  exact ⟨isWhole_word _, by rw [nat, Numbers]; trivial, isWhole_words _, isWhole_str _, trivial⟩

theorem RunState.isWhole_toValue (s : RunState) : s.toValue.Numbers Number.IsWhole := by
  have hverdict : MemberNumbers Number.IsWhole (optional "verdict" VerdictRef.toValue s.verdict) := by
    cases s.verdict with
    | none => trivial
    | some r => exact ⟨r.isWhole_toValue, trivial⟩
  rw [RunState.toValue, Numbers]
  exact ⟨isWhole_str _, s.item.isWhole_toValue, isWhole_str _, isWhole_table Status.isWhole_toValue _,
    by rw [Numbers]; trivial, by rw [nat, Numbers]; trivial, hverdict⟩

/-- **Documents tell revisions apart**, if one of them is a number of 64 bits. -/
theorem RunState.revision_eq_of_document {s t : RunState} (ht : t.revision < wordBound)
    (h : s.document = t.document) : s.revision = t.revision := by
  have hparse := congrArg Json.Document.parse h
  rw [document, document, Json.Document.parse_prettyText s.isWhole_toValue,
    Json.Document.parse_prettyText t.isWhole_toValue] at hparse
  simp only [toValue, Json.Document.ofText, Json.Document.ofTextMembers, List.cons_append,
    Prod.mk.injEq, Json.Document.object.injEq, List.cons.injEq, nat] at hparse
  obtain ⟨⟨⟨-, -, -, -, -, ⟨-, hrev⟩, -⟩, -⟩, -⟩ := hparse
  rw [(fits_of_lt ht).reread_eq, Json.Document.number.injEq] at hrev
  exact Int.ofNat_inj.1 (Number.eq_of_reread hrev)

end Whole

end ReviewPanel
