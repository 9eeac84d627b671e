import ReviewPanel.Proofs.Ledger.Revisions

/-!
# What observers of a ledger see

A call of the ledger is either refused, for a reason that depends on the ledger alone, or accepted.  A
refused one leaves no trace: the ledger is as it was and nobody is told.  An accepted change is told to
observers once, with the run as a reader finds it right after the call.

So an observer who keeps what it is told of a run, from its creation to its removal, has the history of
the run without gaps: the revisions count from zero, and from one snapshot to the next either one role
has moved or the verdict has been attached.

## Main definitions

* `Ledger.refusal?`, `Ledger.Refused` : the reason why a call is refused, computed and described.
* `Ledger.observed` : the snapshots that observers are given by a sequence of calls.
* `RunState.Next` : two snapshots that are one change apart.

## Main statements

* `Ledger.refusal?_eq_some` : calls are refused for the described reasons and for no others.
* `Ledger.told_of_change` : what one call tells observers of a run and what it does to the run belong
  together.
* `Ledger.publishes_history` : **refusals are invisible, accepted changes are published once, and the
  snapshots of one life of a run are its history without gaps.**
-/

namespace ReviewPanel

theorem firstRepeated?_eq_some {rs : List Role} {r : Role} :
    ∀ seen : List Role, firstRepeated? seen rs = some r ↔
      ∃ front back, rs = front ++ r :: back ∧ front.Nodup ∧ (∀ x ∈ front, x ∉ seen) ∧
        (r ∈ front ∨ r ∈ seen) := by
  induction rs with
  | nil => intro seen; simp [firstRepeated?]
  | cons r' rs ih =>
    intro seen
    rw [firstRepeated?]
    split_ifs with hr'
    · constructor
      · intro h
        obtain rfl := Option.some.inj h
        exact ⟨[], rs, rfl, List.nodup_nil, by simp, .inr hr'⟩
      · rintro ⟨front, back, heq, -, hseen, -⟩
        cases front with
        | nil => rw [List.nil_append, List.cons.injEq] at heq; rw [heq.1]
        | cons x front =>
          rw [List.cons_append, List.cons.injEq] at heq
          exact absurd (heq.1 ▸ hr') (hseen x List.mem_cons_self)
    · rw [ih]
      constructor
      · rintro ⟨front, back, rfl, hnd, hseen, hr⟩
        refine ⟨r' :: front, back, rfl, List.nodup_cons.2 ⟨fun hmem => ?_, hnd⟩, ?_, ?_⟩
        · exact hseen r' hmem List.mem_cons_self
        · rintro x (_ | ⟨_, hx⟩)
          · exact hr'
          · exact fun hx' => hseen x hx (List.mem_cons_of_mem _ hx')
        · simp only [List.mem_cons] at hr ⊢
          tauto
      · rintro ⟨front, back, heq, hnd, hseen, hr⟩
        cases front with
        | nil =>
          rw [List.nil_append, List.cons.injEq] at heq
          exact absurd (hr.resolve_left (by simp)) (heq.1 ▸ hr')
        | cons x front =>
          rw [List.cons_append, List.cons.injEq] at heq
          obtain ⟨rfl, rfl⟩ := heq
          obtain ⟨hx, hnd⟩ := List.nodup_cons.1 hnd
          refine ⟨front, back, rfl, hnd, fun y hy hy' => ?_, ?_⟩
          · rcases List.mem_cons.1 hy' with rfl | hy'
            · exact hx hy
            · exact hseen y (List.mem_cons_of_mem _ hy) hy'
          · simp only [List.mem_cons] at hr ⊢
            tauto

namespace RunState

/-- Two snapshots of a run that are one change apart. -/
inductive Next (s : RunState) : RunState → Prop
  /-- One role has moved to a phase that may follow its own. -/
  | moved {role : Role} {status : Status} {phase : Phase} (cause : Option String) (time : Timestamp)
      (hopen : s.verdict = none) (hrole : s.roles.get? role = some status)
      (hallowed : status.phase.allows phase = true) :
      Next s { s with
        roles := s.roles.set role (status.advance phase cause time)
        allComplete := (s.roles.set role (status.advance phase cause time)).values.all
          Status.isTerminal
        revision := s.revision + 1 }
  /-- The verdict has been attached. -/
  | sealed (verdict : VerdictRef) (hopen : s.verdict = none) (hended : s.allComplete = true) :
      Next s { s with verdict := some verdict, revision := s.revision + 1 }

theorem Next.revision_eq {s t : RunState} (h : s.Next t) : t.revision = s.revision + 1 := by
  cases h <;> rfl

/-- Snapshots each of which is one change further than the one before have consecutive revisions. -/
theorem revisions_of_isChain {s : RunState} {ss : List RunState} (h : (s :: ss).IsChain Next) :
    (s :: ss).map revision = List.range' s.revision (ss.length + 1) := by
  induction ss generalizing s with
  | nil => rfl
  | cons t ts ih =>
    obtain ⟨hst, hts⟩ := List.isChain_cons_cons.1 h
    rw [List.map_cons, ih hts, hst.revision_eq]
    rfl

end RunState

namespace Ledger

/-! ### Refusals -/

/-- The reason why a call is refused, if it is. -/
def refusal? (l : Ledger) : Call → Option LedgerError
  | .create id item roles time => reason? (l.create id item roles time)
  | .transition id role phase cause time => reason? (l.transition id role phase cause time)
  | .attach id verdict => reason? (l.attach id verdict)
  | .retire id => reason? (l.retire id)
  | .read id => reason? (l.read id)
  | .isComplete id => reason? (l.isComplete id)
  | .runs => none
where
  /-- The error of a call. -/
  reason? {α : Type} : Except LedgerError α → Option LedgerError
    | .ok _ => none
    | .error e => some e

section Reason

variable {α : Type} {x : Except LedgerError α} {e : LedgerError}

theorem reason?_eq_some : refusal?.reason? x = some e ↔ x = .error e := by
  cases x with
  | error => simp [refusal?.reason?]
  | ok => simp [refusal?.reason?]

theorem reason?_eq_none : refusal?.reason? x = none ↔ ∃ a, x = .ok a := by
  cases x with
  | error => simp [refusal?.reason?]
  | ok => simp [refusal?.reason?]

theorem reason?_map_entry {l : Ledger} {id : RunId} {f : LedgerEntry → α} :
    refusal?.reason? ((l.entry id).map f) = some e ↔
      l.entries.get? id = none ∧ .unknownRun id = e := by
  unfold entry
  cases l.entries.get? id with
  | none => simp [refusal?.reason?, Except.map]
  | some => simp [refusal?.reason?, Except.map]

end Reason

/-- The reasons for which calls are refused.  Where a call can be refused for several reasons, the first
of them that applies is given: each case excludes the ones before it. -/
inductive Refused (l : Ledger) : Call → LedgerError → Prop
  | noRoles {id item time} : Refused l (.create id item [] time) .noRoles
  | duplicateRole {id item time role} {front back : List Role} (hfront : front.Nodup)
      (hmem : role ∈ front) :
      Refused l (.create id item (front ++ role :: back) time) (.duplicateRole role)
  | duplicateRun {id item roles time e} (hne : roles ≠ []) (hnd : roles.Nodup)
      (htaken : l.entries.get? id = some e) :
      Refused l (.create id item roles time) (.duplicateRun id)
  | moveUnknownRun {id role phase cause time} (hrun : l.entries.get? id = none) :
      Refused l (.transition id role phase cause time) (.unknownRun id)
  | moveSealed {id role phase cause time e} (hrun : l.entries.get? id = some e)
      (hsealed : e.verdict.isSome = true) :
      Refused l (.transition id role phase cause time) (.runSealed id)
  | moveUnknownRole {id role phase cause time e} (hrun : l.entries.get? id = some e)
      (hopen : e.verdict = none) (hrole : e.roles.get? role = none) :
      Refused l (.transition id role phase cause time) (.unknownRole id role)
  | moveInvalid {id role phase cause time e s} (hrun : l.entries.get? id = some e)
      (hopen : e.verdict = none) (hrole : e.roles.get? role = some s)
      (hphase : s.phase.allows phase = false) :
      Refused l (.transition id role phase cause time) (.invalidTransition role s.phase phase)
  | attachUnknownRun {id verdict} (hrun : l.entries.get? id = none) :
      Refused l (.attach id verdict) (.unknownRun id)
  | attachNotComplete {id verdict e} (hrun : l.entries.get? id = some e)
      (hrunning : e.isComplete = false) : Refused l (.attach id verdict) (.runNotComplete id)
  | attachSealed {id verdict e} (hrun : l.entries.get? id = some e) (hended : e.isComplete = true)
      (hsealed : e.verdict.isSome = true) : Refused l (.attach id verdict) (.runSealed id)
  | retireUnknownRun {id} (hrun : l.entries.get? id = none) :
      Refused l (.retire id) (.unknownRun id)
  | retireNotComplete {id e} (hrun : l.entries.get? id = some e) (hrunning : e.isComplete = false) :
      Refused l (.retire id) (.runNotComplete id)
  | readUnknownRun {id} (hrun : l.entries.get? id = none) : Refused l (.read id) (.unknownRun id)
  | isCompleteUnknownRun {id} (hrun : l.entries.get? id = none) :
      Refused l (.isComplete id) (.unknownRun id)

theorem refused_create_iff {l : Ledger} {id : RunId} {item : WorkItem} {roles : List Role}
    {time : Timestamp} {e : LedgerError} :
    l.refusal? (.create id item roles time) = some e ↔ l.Refused (.create id item roles time) e := by
  simp only [refusal?, create]
  constructor
  · intro h
    cases roles with
    | nil => obtain rfl : .noRoles = e := Option.some.inj h; exact .noRoles
    | cons r rs =>
      rw [if_neg (by simp)] at h
      split at h
      · rename_i r' hrep
        obtain ⟨front, back, heq, hnd, -, hmem⟩ := (firstRepeated?_eq_some []).1 hrep
        obtain rfl := Option.some.inj h
        rw [heq]
        exact .duplicateRole hnd (hmem.resolve_right (by simp))
      · rename_i hrep
        split_ifs at h with htaken
        · obtain ⟨x, hx⟩ := Option.isSome_iff_exists.1 htaken
          obtain rfl := Option.some.inj h
          exact .duplicateRun (by simp) ((firstRepeated?_eq_none []).1 hrep).1 hx
        · cases h
  · intro h
    cases h with
    | noRoles => rfl
    | @duplicateRole _ _ _ role front back hnd hmem =>
      have hrep : firstRepeated? [] (front ++ role :: back) = some role :=
        (firstRepeated?_eq_some []).2 ⟨front, back, rfl, hnd, by simp, .inl hmem⟩
      rw [if_neg (by simp), hrep]
      rfl
    | duplicateRun hne hnd htaken =>
      have hrep : firstRepeated? [] roles = none := (firstRepeated?_eq_none []).2 ⟨hnd, by simp⟩
      rw [if_neg (by simpa using hne), hrep]
      simp only [Dictionary.contains, htaken, Option.isSome_some, if_pos]
      rfl

theorem refused_transition_iff {l : Ledger} {id : RunId} {role : Role} {phase : Phase}
    {cause : Option String} {time : Timestamp} {e : LedgerError} :
    l.refusal? (.transition id role phase cause time) = some e ↔
      l.Refused (.transition id role phase cause time) e := by
  simp only [refusal?, transition]
  constructor
  · intro h
    split at h
    · rename_i hrun
      obtain rfl := Option.some.inj h
      exact .moveUnknownRun hrun
    · rename_i x hrun
      split_ifs at h with hv
      · obtain rfl := Option.some.inj h
        exact .moveSealed hrun hv
      · have hopen : x.verdict = none := by simpa using hv
        split at h
        · rename_i hrole
          obtain rfl := Option.some.inj h
          exact .moveUnknownRole hrun hopen hrole
        · rename_i s hrole
          split_ifs at h with ha
          · cases h
          · obtain rfl := Option.some.inj h
            exact .moveInvalid hrun hopen hrole (by simpa using ha)
  · intro h
    cases h with
    | moveUnknownRun hrun => simp [hrun, refusal?.reason?]
    | moveSealed hrun hsealed => simp [hrun, hsealed, refusal?.reason?]
    | moveUnknownRole hrun hopen hrole => simp [hrun, hopen, hrole, refusal?.reason?]
    | moveInvalid hrun hopen hrole hphase => simp [hrun, hopen, hrole, hphase, refusal?.reason?]

theorem refused_attach_iff {l : Ledger} {id : RunId} {verdict : VerdictRef} {e : LedgerError} :
    l.refusal? (.attach id verdict) = some e ↔ l.Refused (.attach id verdict) e := by
  simp only [refusal?, attach]
  constructor
  · intro h
    split at h
    · rename_i hrun
      obtain rfl := Option.some.inj h
      exact .attachUnknownRun hrun
    · rename_i x hrun
      split_ifs at h with hc hv
      · obtain rfl := Option.some.inj h
        exact .attachNotComplete hrun (by simpa using hc)
      · obtain rfl := Option.some.inj h
        exact .attachSealed hrun (by simpa using hc) hv
      · cases h
  · intro h
    cases h with
    | attachUnknownRun hrun => simp [hrun, refusal?.reason?]
    | attachNotComplete hrun hrunning => simp [hrun, hrunning, refusal?.reason?]
    | attachSealed hrun hended hsealed => simp [hrun, hended, hsealed, refusal?.reason?]

theorem refused_retire_iff {l : Ledger} {id : RunId} {e : LedgerError} :
    l.refusal? (.retire id) = some e ↔ l.Refused (.retire id) e := by
  simp only [refusal?, retire]
  constructor
  · intro h
    split at h
    · rename_i hrun
      obtain rfl := Option.some.inj h
      exact .retireUnknownRun hrun
    · rename_i x hrun
      split_ifs at h with hc
      · cases h
      · obtain rfl := Option.some.inj h
        exact .retireNotComplete hrun (by simpa using hc)
  · intro h
    cases h with
    | retireUnknownRun hrun => simp [hrun, refusal?.reason?]
    | retireNotComplete hrun hrunning => simp [hrun, hrunning, refusal?.reason?]

/-- **Calls are refused for the described reasons and for no others.** -/
theorem refusal?_eq_some {l : Ledger} {c : Call} {e : LedgerError} :
    l.refusal? c = some e ↔ l.Refused c e := by
  cases c with
  | create => exact refused_create_iff
  | transition => exact refused_transition_iff
  | attach => exact refused_attach_iff
  | retire => exact refused_retire_iff
  | read id =>
    simp only [refusal?, read, reason?_map_entry]
    constructor
    · rintro ⟨hrun, rfl⟩
      exact .readUnknownRun hrun
    · rintro ⟨⟩
      exact ⟨by assumption, rfl⟩
  | isComplete id =>
    simp only [refusal?, isComplete, reason?_map_entry]
    constructor
    · rintro ⟨hrun, rfl⟩
      exact .isCompleteUnknownRun hrun
    · rintro ⟨⟩
      exact ⟨by assumption, rfl⟩
  | runs => exact ⟨fun h => (by cases h), fun h => (by cases h)⟩

theorem untouched_of_refused {l : Ledger} {c : Call} {e : LedgerError} (h : l.refusal? c = some e) :
    l.apply c = l ∧ l.published? c = none := by
  cases c with
  | create | transition | attach | retire =>
    simp only [apply, published?, reason?_eq_some.1 h, Except.toOption, Option.map_none, and_self]
  | read | isComplete | runs => exact ⟨rfl, rfl⟩

/-! ### Publications -/

/-- The call asks for a change that observers are told of. -/
def Call.isAnnounced : Call → Bool
  | .create .. | .transition .. | .attach .. => true
  | .retire _ | .read _ | .isComplete _ | .runs => false

/-- The snapshots that observers are given by a sequence of calls, in the order of the calls. -/
def observed (l : Ledger) : List Call → List RunState
  | [] => []
  | c :: cs => (l.published? c).toList ++ (l.apply c).observed cs

theorem runId_of_published {l : Ledger} {c : Call} {s : RunState} (h : l.published? c = some s) :
    c.runId? = some s.runId := by
  cases c with
  | create id item roles time =>
    obtain ⟨u, hu, rfl⟩ := Option.map_eq_some_iff.1 h
    obtain ⟨-, -, -, rfl⟩ := create_eq_ok.1 (toOption_eq_some hu)
    rfl
  | transition id role phase cause time =>
    obtain ⟨u, hu, rfl⟩ := Option.map_eq_some_iff.1 h
    obtain ⟨e, status, -, -, -, -, rfl⟩ := transition_eq_ok.1 (toOption_eq_some hu)
    rfl
  | attach id verdict =>
    obtain ⟨u, hu, rfl⟩ := Option.map_eq_some_iff.1 h
    obtain ⟨e, -, -, -, rfl⟩ := attach_eq_ok.1 (toOption_eq_some hu)
    rfl
  | retire | read | isComplete | runs => cases h

theorem published_of_accepted {l : Ledger} {c : Call} (hc : c.isAnnounced = true)
    (h : l.refusal? c = none) : ∃ s, l.published? c = some s := by
  cases c with
  | create | transition | attach =>
    obtain ⟨u, hu⟩ := reason?_eq_none.1 h
    exact ⟨u.published, by simp only [published?, hu]; rfl⟩
  | retire | read | isComplete | runs => cases hc

theorem published_eq_none {l : Ledger} {c : Call} (hc : c.isAnnounced = false) :
    l.published? c = none := by
  cases c with
  | create | transition | attach => cases hc
  | retire | read | isComplete | runs => rfl

section Change

variable {l : Ledger} {c : Call} {id : RunId} {e e' : LedgerEntry}

theorem unchanged_of_unpublished (he : l.entries.get? id = some e)
    (he' : (l.apply c).entries.get? id = some e') (hpub : l.published? c = none) : e' = e := by
  have hsilent : ∀ hsame : l.apply c = l, e' = e := fun hsame => by
    rw [hsame, he] at he'
    exact (Option.some.inj he').symm
  cases href : l.refusal? c with
  | some err => exact hsilent (untouched_of_refused href).1
  | none =>
    cases c with
    | create | transition | attach =>
      obtain ⟨s, hs⟩ := published_of_accepted rfl href
      rw [hpub] at hs
      cases hs
    | retire id' =>
      -- an accepted removal would have taken the run off the ledger
      obtain ⟨r, hret⟩ := reason?_eq_none.1 href
      by_cases hid : id = id'
      · subst hid
        simp only [apply, hret] at he'
        rw [get?_of_retire hret] at he'
        cases he'
      · have hne : (Call.retire id').runId? ≠ some id := fun h => hid (Option.some.inj h).symm
        rw [get?_apply_of_ne l hne, he] at he'
        exact (Option.some.inj he').symm
    | read | isComplete | runs => exact hsilent rfl

/-- A run that was on the ledger before is one change further if it is published. -/
theorem next_of_published {s : RunState} (hpub : l.published? c = some s)
    (he : l.entries.get? s.runId = some e) (he' : (l.apply c).entries.get? s.runId = some e') :
    (e.snapshot s.runId).Next (e'.snapshot s.runId) := by
  have hid := runId_of_published hpub
  cases c with
  | create id item roles time =>
    obtain ⟨u, hu, -⟩ := Option.map_eq_some_iff.1 hpub
    obtain ⟨-, -, hfree, -⟩ := create_eq_ok.1 (toOption_eq_some hu)
    rw [Option.some.inj hid, he] at hfree
    cases hfree
  | transition id role phase cause time =>
    obtain ⟨u, hu, -⟩ := Option.map_eq_some_iff.1 hpub
    have hok := toOption_eq_some hu
    obtain ⟨x, status, hx, hv, hr, ha, rfl⟩ := transition_eq_ok.1 hok
    obtain rfl : id = s.runId := Option.some.inj hid
    obtain rfl : x = e := Option.some.inj (hx.symm.trans he)
    simp only [apply, hok, get?_put, if_pos, Option.some.injEq] at he'
    rw [← he']
    exact .moved cause time hv hr ha
  | attach id verdict =>
    obtain ⟨u, hu, -⟩ := Option.map_eq_some_iff.1 hpub
    have hok := toOption_eq_some hu
    obtain ⟨x, hx, hc, hv, rfl⟩ := attach_eq_ok.1 hok
    obtain rfl : id = s.runId := Option.some.inj hid
    obtain rfl : x = e := Option.some.inj (hx.symm.trans he)
    simp only [apply, hok, get?_put, if_pos, Option.some.injEq] at he'
    rw [← he']
    exact .sealed verdict hv hc
  | retire | read | isComplete | runs => cases hpub

/-- **What one call tells observers of a run and what it does to the run belong together**: as long as
the run stays on the ledger, either nothing is told and nothing has changed, or the run as it is now is
told and it is one change further. -/
theorem told_of_change (he : l.entries.get? id = some e)
    (he' : (l.apply c).entries.get? id = some e') :
    ((l.published? c).toList.filter (fun s => s.runId = id) = [] ∧ e' = e) ∨
      (l.published? c).toList.filter (fun s => s.runId = id) = [e'.snapshot id] ∧
        (e.snapshot id).Next (e'.snapshot id) := by
  cases hpub : l.published? c with
  | none => exact .inl ⟨rfl, unchanged_of_unpublished he he' hpub⟩
  | some s =>
    by_cases hid : s.runId = id
    · subst hid
      obtain ⟨x, hx, hs⟩ := read_eq_ok.1 (read_of_published hpub)
      obtain rfl : x = e' := Option.some.inj (hx.symm.trans he')
      refine .inr ⟨?_, next_of_published hpub he he'⟩
      rw [Option.toList_some, List.filter_cons_of_pos (by simp), hs]
      rfl
    · -- what is told concerns another run
      have hne : c.runId? ≠ some id := fun h =>
        hid (Option.some.inj ((runId_of_published hpub).symm.trans h))
      rw [get?_apply_of_ne l hne, he] at he'
      exact .inl ⟨by simp [hid], (Option.some.inj he').symm⟩

end Change

/-! ### The history that observers see -/

/-- What observers are told of a run that is on the ledger and stays there: one snapshot per change, the
last of which is the run as it is in the end. -/
theorem observed_of_alive (cs : List Call) {l : Ledger} {id : RunId} {e : LedgerEntry}
    (he : l.entries.get? id = some e)
    (halive : ∀ n, (((cs.take n).foldl apply l).entries.get? id).isSome = true) :
    (e.snapshot id :: (l.observed cs).filter fun s => s.runId = id).IsChain RunState.Next ∧
      (cs.foldl apply l).read id = .ok
        ((e.snapshot id :: (l.observed cs).filter fun s => s.runId = id).getLast (by simp)) := by
  induction cs generalizing l e with
  | nil => exact ⟨.singleton _, read_eq_ok.2 ⟨e, he, rfl⟩⟩
  | cons c cs ih =>
    obtain ⟨e', he'⟩ := Option.isSome_iff_exists.1 (halive 1)
    simp only [List.take_succ_cons, List.take_zero, List.foldl_cons, List.foldl_nil] at he'
    obtain ⟨hchain, hlast⟩ := ih he' fun n => by simpa using halive (n + 1)
    simp only [observed, List.filter_append, List.foldl_cons]
    rcases told_of_change he he' with ⟨hnone, rfl⟩ | ⟨hone, hnext⟩
    · simp only [hnone, List.nil_append]
      exact ⟨hchain, hlast⟩
    · simp only [hone, List.singleton_append]
      refine ⟨.cons_cons hnext hchain, hlast.trans (congrArg _ ?_)⟩
      rw [List.getLast_cons (List.cons_ne_nil _ _)]

@[simp] theorem observed_singleton (l : Ledger) (c : Call) :
    l.observed [c] = (l.published? c).toList := List.append_nil _

section Life

variable {id : RunId} {item : WorkItem} {roles : List Role} {time : Timestamp}
  {before later : List Call}

theorem observed_life (h : CreatedBy id item roles time before later) :
    ∃ seen, ((after before).observed (.create id item roles time :: later)).filter
        (fun s => s.runId = id) = (LedgerEntry.fresh item roles time).snapshot id :: seen ∧
      ((LedgerEntry.fresh item roles time).snapshot id :: seen).IsChain RunState.Next ∧
      (after (before ++ .create id item roles time :: later)).read id =
        .ok (((LedgerEntry.fresh item roles time).snapshot id :: seen).getLast (by simp)) := by
  obtain ⟨⟨u, hu⟩, halive⟩ := h
  obtain ⟨-, -, -, rfl⟩ := create_eq_ok.1 hu
  have hafter : ∀ cs, after (before ++ .create id item roles time :: cs) =
      cs.foldl apply ((after before).apply (.create id item roles time)) := fun cs => by simp [after]
  have hfresh : ((after before).apply (.create id item roles time)).entries.get? id =
      some (.fresh item roles time) := by
    simp only [apply, hu, get?_put, if_pos]
  obtain ⟨hchain, hlast⟩ := observed_of_alive later hfresh fun n => hafter _ ▸ halive n
  refine ⟨_, ?_, hchain, (hafter later).symm ▸ hlast⟩
  simp only [observed, published?, hu, Except.toOption, Option.map_some, Option.toList_some,
    List.singleton_append]
  exact List.filter_cons_of_pos (by simp [LedgerEntry.snapshot])

end Life

/-- **Refusals are invisible, accepted changes are published once, and the snapshots of a run are its
history.**  On a ledger that any calls have led to,

* a call is refused for the reasons that `Refused` lists, in the order in which it excludes them, and for
  no others,
* a refused call leaves the ledger as it is and tells observers nothing,
* an accepted change tells them one snapshot, which is what a reader gets right after it; no other call
  tells them anything.

And the snapshots that observers are told of a run from the call that creates it on, as long as it stays
on the ledger, have the revisions 0, 1, 2 and so on, any two consecutive ones are exactly one move of a
role or the verdict apart, and the last one is the run as it is then. -/
theorem publishes_history (before : List Call) :
    (∀ c,
      (∀ e, (after before).refusal? c = some e ↔ (after before).Refused c e) ∧
      (∀ e, (after before).refusal? c = some e →
        (after before).apply c = after before ∧ (after before).observed [c] = []) ∧
      ((after before).refusal? c = none → c.isAnnounced = true →
        ∃ s, (after before).observed [c] = [s] ∧ c.runId? = some s.runId ∧
          ((after before).apply c).read s.runId = .ok s) ∧
      (c.isAnnounced = false → (after before).observed [c] = [])) ∧
    ∀ id item roles time later, CreatedBy id item roles time before later →
      ∃ seen last, ((after before).observed (.create id item roles time :: later)).filter
          (fun s => s.runId = id) = seen ∧
        seen.map RunState.revision = List.range seen.length ∧
        seen.IsChain RunState.Next ∧
        seen.getLast? = some last ∧
        (after (before ++ .create id item roles time :: later)).read id = .ok last := by
  refine ⟨fun c => ⟨fun e => refusal?_eq_some, fun e he => ?_, fun href hc => ?_, fun hc => ?_⟩, ?_⟩
  · obtain ⟨hsame, hpub⟩ := untouched_of_refused he
    exact ⟨hsame, by rw [observed_singleton, hpub]; rfl⟩
  · obtain ⟨s, hs⟩ := published_of_accepted hc href
    exact ⟨s, by rw [observed_singleton, hs]; rfl, runId_of_published hs, read_of_published hs⟩
  · rw [observed_singleton, published_eq_none hc]
    rfl
  · intro id item roles time later hby
    obtain ⟨seen, hseen, hchain, hlast⟩ := observed_life hby
    refine ⟨_, _, hseen, ?_, hchain, List.getLast?_eq_getLast_of_ne_nil (by simp), hlast⟩
    rw [RunState.revisions_of_isChain hchain, List.length_cons, List.range_eq_range']
    rfl

/-- The second life of a run, with two refused calls in between: observers are told of its creation, of
two starts and of a failure. -/
theorem publishes_history_second_life :
    ∃ seen last, ((after firstLife).observed
        (.create "r" (.ofReference "b") [.build, .security] noon :: secondLife.take 4)).filter
          (fun s => s.runId = "r") = seen ∧
      seen.map RunState.revision = [0, 1, 2, 3] ∧ seen.IsChain RunState.Next ∧
      seen.getLast? = some last ∧
      (after (firstLife ++ .create "r" (.ofReference "b") [.build, .security] noon ::
        secondLife.take 4)).read "r" = .ok last := by
  obtain ⟨seen, last, hseen, hrevisions, hchain, hlast, hread⟩ :=
    (publishes_history firstLife).2 _ _ _ _ _ createdBy_secondLife
  have hlength : seen.length = 4 := hseen ▸ rfl
  exact ⟨seen, last, hseen, by rw [hrevisions, hlength]; rfl, hchain, hlast, hread⟩

end Ledger

end ReviewPanel
