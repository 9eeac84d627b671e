import Mathlib.Data.List.Infix
import ReviewPanel.Proofs.Panel.Calls
import ReviewPanel.Proofs.Panel.Reruns
import ReviewPanel.Proofs.Panel.Sealing
import ReviewPanel.Proofs.Reduction.Balance

/-!
# The documents of a finalized run corroborate each other

A verdict is written down on its own, indented; its digest is taken from the text without blanks, goes to
the ledger with a reference to the verdict, from there to the scribe, and is flushed to the state document.
When the client gets the verdict, all this has happened: either document tells the verdict, the state
document is that of the run as it is on the ledger, and the digest in it is that of the verdict document.

That is so if no other run uses the directory and the system has let the state document be written.
Snapshots reach the scribe late and in any order all the while, also between the moment when the verdict is
attached and the flush; but one that is older than what the registration of the run knows is no news, and
the snapshot with the verdict is the newest of all.  From then on nothing disturbs the two documents, not
even a system that refuses everything: not another call, not a late supervisor or a late snapshot, not a
writer.

An earlier life of the same run counts as another run.  A snapshot of it that is on its way when the run is
started again may well be news to the new registration, and would be what is flushed.

## Main definitions

* `Panel.Underway` : the invariant from the start of the run on.
* `Panel.Writable` : the system lets the state document be written.
* `Panel.Corroborated` : what a reader of the two documents finds.

## Main statements

* `Panel.Underway.step`, `Panel.Underway.run` : one step, and so every schedule, keeps the invariant.
* `Panel.documents_corroborate` : **whenever a run has been finalized, its documents corroborate each
  other**, and they go on doing so.
-/

namespace ReviewPanel

/-- **If its findings can be counted in a word**, the document can hold a verdict. -/
theorem Verdict.storable_reduce {s : RunState} {lookup : Role → Option (List Finding)}
    (h : (Verdict.reduce s lookup).totalFindings < wordBound) :
    (Verdict.reduce s lookup).Storable ∧ (Verdict.reduce s lookup).blockers.length < wordBound := by
  rw [Verdict.reduce_eq_ofRecords] at h ⊢
  generalize Reduction.records lookup s.roles.entries = xs at h ⊢
  -- every other number counts some of the findings
  have hcount : ∀ P : Role × Finding → Bool, xs.countP P < wordBound := fun P =>
    Nat.lt_of_le_of_lt List.countP_le_length h
  refine ⟨⟨fun sev n hn => ?_, fun c n hn => ?_, fun c row hrow sev n hn => ?_, h⟩, ?_⟩
  · exact Option.some.inj hn ▸ hcount _
  · exact Option.some.inj hn ▸ hcount _
  · obtain rfl := Option.some.inj hrow
    exact Option.some.inj hn ▸ hcount _
  · rw [Verdict.length_blockers]
    exact hcount _

namespace Panel

open Workspace (dirFor)

variable {p q : Panel} {root : String} {id : RunId} {e : Event} {i n : Nat} {v : Verdict} {s : RunState}

/-! ### From the start of a run on -/

/-- The state document of the run has a sole writer, and if an incarnation has its verdict, it is sealed. -/
structure Underway (q : Panel) (root : String) (id : RunId) (n : Nat) : Prop where
  serving : ∃ xs, q.Serving root id n xs
  sealed : ∀ i inc v, q.table.get? id = some i → q.incarnations[i]? = some inc →
    inc.verdict = some v → ∃ s, q.Sealed root id i v s

theorem step_eq_self (hq : Reachable q) (hroot : q.config.workspaceRoot = some root)
    (hthere : q.disk.reach (q.disk.locate root ++ [sanitize id]) = .ok .directory)
    (hnot : ¬ e.Spares id) (hdir : q.SparesDirectory root id e)
    (htable : (q.step e).table.get? id = some i) : q.step e = q := by
  cases e with
  | start b item roles =>
    obtain rfl : b = id := Classical.not_not.1 hnot
    rcases (start_opening hroot b item roles).outcome (hq.inOrder hroot) with
      ⟨err, heq⟩ | ⟨hgone, -⟩ | ⟨d, d', hdisk, hcreate, hd'⟩
    · rw [Panel.step, heq]
    · rcases (hq.step (.start b item roles)).wired.listed b with ⟨hnone, -⟩ | ⟨_, _, _, _, _, _, hx, _⟩
      · rw [htable] at hnone
        cases hnone
      · exact absurd (fun hnone => by cases hx.symm.trans hnone) hgone
    · exact absurd (hd'.symm.trans (hdir rfl)) (hdisk.ne_of_create hthere hcreate)
  | forget b =>
    obtain rfl : b = id := Classical.not_not.1 hnot
    rcases q.forget_cases b with ⟨_, hf⟩ | ⟨_, _, _, _, -, -, hf⟩
    · rw [Panel.step, hf]
    · rw [Panel.step, hf, Dictionary.get?_erase, if_pos rfl] at htable
      cases htable
  | _ => exact absurd trivial hnot

theorem eq_finalize_of_verdict (hq : Reachable q) {inc inc' : Incarnation}
    (htable : q.table.get? id = some i) (hinc : q.incarnations[i]? = some inc)
    (hinc' : (q.step e).incarnations[i]? = some inc') (hspares : e.Spares id)
    (hnone : inc.verdict = none) (hv : inc'.verdict = some v) : e = .finalize id := by
  rcases (q.step_move e).verdict_cases hinc hinc' with hsame | ⟨b, v', x, htab, hx, -, -, -, hx'⟩
  · rw [hsame, hnone] at hv
    cases hv
  · obtain rfl : b = id := by
      rw [← (hq.wired.listed b).runId_eq htab hinc, (hq.wired.listed id).runId_eq htable hinc]
    have hchange := (q.step_move e).change b
    rw [hx, hx'] at hchange
    generalize hy : some (x.withVerdict v'.toRef) = y at hchange
    cases hchange with
    | same => exact absurd (congrArg LedgerEntry.revision (Option.some.inj hy)) (Nat.succ_ne_self _)
    | reported _ _ _ hnone' | forced _ _ _ _ _ hnone' =>
      have hverdict := congrArg LedgerEntry.verdict (Option.some.inj hy)
      rw [LedgerEntry.move, LedgerEntry.withVerdict, hnone'] at hverdict
      cases hverdict
    | judged => rfl
    | removed => cases hy
    | restarted => exact absurd rfl hspares

/-- **One step** keeps the run underway, as long as the directory lasts and the system lets the state
document be written. -/
theorem Underway.step (h : q.Underway root id n) (hq : Reachable q)
    (hroot : q.config.workspaceRoot = some root) (hdir : q.SparesDirectory root id e)
    (hrefusal : q.disk.refusal (q.disk.locate (Workspace.statusPath ⟨id, dirFor root id⟩)) = none) :
    (q.step e).Underway root id n := by
  obtain ⟨xs, hserving⟩ := h.serving
  obtain ⟨xs', hrenewal⟩ := hserving.renewal (hq.inOrder hroot) hq.wired hroot hdir
  refine ⟨⟨xs', hrenewal.serving⟩, fun i inc' v htable hinc' hv => ?_⟩
  by_cases hspares : e.Spares id
  · have htable' : q.table.get? id = some i := ((q.step_move e).table_get? hspares).symm.trans htable
    obtain ⟨inc, hinc⟩ : ∃ inc, q.incarnations[i]? = some inc := by
      rcases hq.wired.listed id with ⟨hnone, -⟩ | ⟨i', inc, _, htab, hinc, _⟩
      · rw [htable'] at hnone
        cases hnone
      · obtain rfl := Option.some.inj (htab.symm.trans htable')
        exact ⟨inc, hinc⟩
    cases hbefore : inc.verdict with
    | some v' =>
      obtain ⟨s, hs⟩ := h.sealed i inc v' htable' hinc hbefore
      obtain ⟨inc'', hinc'', hgrow⟩ := (q.step_advances e).incarnations i inc hinc
      obtain rfl := Option.some.inj (hinc'.symm.trans hinc'')
      obtain rfl := Option.some.inj ((hgrow.verdict v' hbefore).symm.trans hv)
      exact ⟨s, hs.step hq hroot hspares hdir⟩
    | none =>
      obtain rfl := eq_finalize_of_verdict hq htable' hinc hinc' hspares hbefore hv
      have hact : q.active id = .ok (i, inc) := active_eq_ok.2 ⟨htable', hinc⟩
      obtain ⟨v', hfin⟩ : ∃ v', (q.finalize id).2 = .ok v' := by
        rcases q.finalize_cases id with ⟨_, d, hf⟩ | ⟨_, _, v', -, ⟨-, hf⟩ | ⟨-, _, _, _, _, -, -, -, hf⟩⟩
        · rw [Panel.step, hf] at hinc'
          obtain rfl := Option.some.inj (hinc.symm.trans hinc')
          rw [hbefore] at hv
          cases hv
        · exact ⟨v', by rw [hf]⟩
        · exact ⟨v', by rw [hf]⟩
      obtain ⟨s, hs⟩ := hserving.sealed hq hroot hrefusal hact hbefore hfin
      obtain ⟨inc₀, hinc₀, hv₀⟩ := hs.remembered
      obtain rfl := Option.some.inj (hinc₀.symm.trans hinc')
      obtain rfl := Option.some.inj (hv₀.symm.trans hv)
      exact ⟨s, hs⟩
  · have hself := step_eq_self hq hroot hserving.there hspares hdir htable
    rw [hself] at htable hinc' ⊢
    exact h.sealed i inc' v htable hinc' hv

/-- The system lets the state document of the run be written all through the schedule. -/
def Writable (p : Panel) (root : String) (id : RunId) (es : List Event) : Prop :=
  ∀ es', es' <+: es → (p.run es').disk.refusal
    ((p.run es').disk.locate (Workspace.statusPath ⟨id, dirFor root id⟩)) = none

instance (p : Panel) (root : String) (id : RunId) (es : List Event) : Decidable (p.Writable root id es) :=
  decidable_of_iff (∀ es' ∈ es.inits, (p.run es').disk.refusal
      ((p.run es').disk.locate (Workspace.statusPath ⟨id, dirFor root id⟩)) = none)
    (by simp only [Writable, List.mem_inits])

theorem Underway.run (h : q.Underway root id n) (hq : Reachable q)
    (hroot : q.config.workspaceRoot = some root) {es : List Event} (hlasts : q.Lasting root id es)
    (hwritable : q.Writable root id es) : (q.run es).Underway root id n := by
  induction es using List.reverseRecOn with
  | nil => exact h
  | append_singleton es e ih =>
    have hpre : es <+: es ++ [e] := List.prefix_append _ _
    rw [run_concat]
    refine (ih (hlasts.of_isPrefix hpre) fun es' hes' => hwritable es' (hes'.trans hpre)).step
      (hq.run es) ?_ (hlasts es e (List.prefix_refl _)) (hwritable es hpre)
    rw [(q.run_advances es).config_eq, hroot]

theorem Opening.vacant {item : WorkItem} {roles : List Role} {y : Panel × Except PanelError RunId}
    (hopen : Opening p root id item roles y) (hin : p.scribe.InOrder p.ledger root) (hok : y.2 = .ok id)
    (hrooted : p.disk.Rooted) :
    y.1.disk.reach (y.1.disk.locate root ++ [sanitize id]) = .ok .directory ∧
      y.1.document? root id = .error .notFound := by
  rcases hopen.outcome hin with ⟨err, heq⟩ | ⟨-, err, heq⟩ | ⟨d, d', hdisk, hcreate, hd'⟩
  · rw [heq] at hok
    cases hok
  · rw [heq] at hok
    cases hok
  · obtain ⟨-, hhere, hreach, d₁, hmade, hfree, heq⟩ := Workspace.create_eq_ok hcreate
    have hlocate : y.1.disk.locate root = d.locate root := by rw [hd', Disk.locate_congr hhere]
    rw [← hd', ← hlocate] at hreach
    refine ⟨hreach, ?_⟩
    have hempty : y.1.disk.node? (y.1.disk.locate root ++ [sanitize id] ++ [Workspace.statusName]) =
        none := by
      rw [hlocate, hd', heq, Disk.node?_put, Disk.node?_put]
      · exact ((hdisk.rooted hrooted).makeDirectories hmade).node?_below hfree _
      · simp
      · simp [Workspace.statusName, Workspace.findingsName]
    rw [document?, Workspace.statusContent, Workspace.locate_statusPath, Disk.fileContent,
      Disk.reach_concat hreach, if_neg (by decide), hempty]

/-- **A run is underway once it has been started**, if no other run on the ledger has its directory, the
registrations of earlier lives have nothing left to write, and no news of them is on its way. -/
theorem underway_start (hp : Reachable p) (hroot : p.config.workspaceRoot = some root)
    (hrooted : p.disk.Rooted) {item : WorkItem} {roles : List Role}
    (hok : (p.start id item roles).2 = .ok id)
    (hapart : ∀ b, b ≠ id → p.Registered b → dirFor root b ≠ dirFor root id)
    (hidle : ∀ r ∈ p.scribe.registrations, r.workspace.dir = dirFor root id → r.Idle)
    (hlate : ∀ s ∈ p.inFlight, s.runId = id → s.revision ≤ roles.length) :
    (p.start id item roles).1.Underway root id p.scribe.registrations.length := by
  have hin := hp.inOrder hroot
  have hopen := start_opening hroot id item roles
  obtain ⟨hmade, hnew⟩ := hopen.vacant hin hok hrooted
  obtain ⟨s, -, hserving⟩ := (hopen.enrolled hin hok).serving hin hmade hnew hapart hidle
    fun t ht s hs hid =>
      (revision_of_start hok ht).1 ▸ hlate s (p.start_inFlight id item roles ▸ hs) hid
  refine ⟨⟨_, hserving⟩, fun i inc v htable hinc hv => ?_⟩
  -- the incarnation is new, and has no verdict
  rcases p.start_cases id item roles with
    ⟨err, hf⟩ | ⟨_, _, _, _, _, -, ⟨err, hf⟩ | ⟨_, _, _, -, -, -, hf⟩⟩
  · rw [hf] at hok
    cases hok
  · rw [hf] at hok
    cases hok
  · rw [hf] at htable hinc
    rw [Dictionary.get?_insert_self] at htable
    obtain rfl := Option.some.inj htable
    rw [List.getElem?_concat_length] at hinc
    rw [← Option.some.inj hinc] at hv
    cases hv

/-! ### What a reader of the documents finds -/

/-- The verdict document reads as the verdict `v`; the state document reads as the run as it is on the
ledger, of which all roles have ended, with a reference to that verdict; the digest in it is that of the
verdict document as it reads; and finalizing the run once more gives the same verdict. -/
structure Corroborated (q : Panel) (root : String) (id : RunId) (v : Verdict) : Prop where
  verdict : Workspace.readVerdict ⟨id, dirFor root id⟩ q.disk = .ok v
  status : ∃ s r, q.ledger.read id = .ok s ∧
    Workspace.readStatus ⟨id, dirFor root id⟩ q.disk = .ok s ∧
    s.allComplete = true ∧ s.verdict = some r ∧ r.recommendation = v.recommendation ∧
    r.blockerCount = v.blockers.length ∧ r.missingPerspectives = v.missingPerspectives
  digest : ∀ s r v', Workspace.readStatus ⟨id, dirFor root id⟩ q.disk = .ok s → s.verdict = some r →
    Workspace.readVerdict ⟨id, dirFor root id⟩ q.disk = .ok v' →
    r.digest = Sha256.ofText v'.toValue.compactText
  again : q.finalize id = (q, .ok v)

/-- **The documents of a sealed run corroborate each other**, if they can hold what they are to. -/
theorem Sealed.corroborated (h : q.Sealed root id i v s) (hs : s.Storable) (hv : v.Storable) :
    q.Corroborated root id v := by
  have hverdict := Workspace.readVerdict_of_content h.verdict hv
  have hstatus := Workspace.readStatus_of_content h.status hs
  refine ⟨hverdict, ⟨s, v.toRef, h.read, hstatus, h.complete, h.ref, rfl, rfl, rfl⟩, ?_,
    h.finalize_eq⟩
  intro s' r v' hs' hr hv'
  obtain rfl := Except.ok.inj (hstatus.symm.trans hs')
  obtain rfl := Except.ok.inj (hverdict.symm.trans hv')
  rw [← Option.some.inj (h.ref.symm.trans hr)]
  rfl

/-- **The documents of a finalized run corroborate each other.**  A run is started; no other run uses its
directory, that is, no other run on the ledger has it, nothing of an earlier life is left to write or on
its way to the scribe as news, and no later start lays hands on it; and the system lets its state document
be written.  Whenever finalizing it gives a verdict, the two documents corroborate each other, in whatever
order snapshots arrive before, meanwhile and afterwards, and they do so after whatever happens next to the
panel, as long as the run is neither forgotten nor started again and its directory is left alone.

The calendar shows times that are in it, and the findings can be counted in a word. -/
theorem documents_corroborate (hp : Reachable p) (hroot : p.config.workspaceRoot = some root)
    (hrooted : p.disk.Rooted) (hnow : p.now.Valid) {item : WorkItem} {roles : List Role}
    (hok : (p.start id item roles).2 = .ok id)
    (hapart : ∀ b, b ≠ id → p.Registered b → dirFor root b ≠ dirFor root id)
    (hidle : ∀ r ∈ p.scribe.registrations, r.workspace.dir = dirFor root id → r.Idle)
    (hlate : ∀ s ∈ p.inFlight, s.runId = id → s.revision ≤ roles.length)
    {es : List Event} (hlasts : (p.start id item roles).1.Lasting root id es)
    (hwritable : (p.start id item roles).1.Writable root id es) (hdated : ∀ e ∈ es, e.Dated)
    (hq : q = (p.start id item roles).1.run es) (hfin : (q.finalize id).2 = .ok v)
    (hcount : v.totalFindings < wordBound) {es' : List Event} (hspares : ∀ e ∈ es', e.Spares id)
    (hlasts' : (q.step (.finalize id)).Lasting root id es') :
    ((q.step (.finalize id)).run es').Corroborated root id v := by
  have hstart : Reachable (p.start id item roles).1 := hp.step (.start id item roles)
  have hreach : Reachable q := hq ▸ hstart.run es
  have hroot' : (p.start id item roles).1.config.workspaceRoot = some root := by
    rw [show (p.start id item roles).1.config = p.config from
      (p.step_advances (.start id item roles)).config_eq, hroot]
  have hrootq : q.config.workspaceRoot = some root := by
    rw [hq, (run_advances _ es).config_eq, hroot']
  have hunderway := (underway_start hp hroot hrooted hok hapart hidle hlate).run hstart hroot' hlasts
    hwritable
  have hdatedq : q.DatedAt id := hq ▸ (datedAt_start hnow hok).run hdated
  have hwrite := hwritable es (List.prefix_refl _)
  rw [← hq] at hunderway hwrite
  -- the call seals the run, or it was sealed before
  obtain ⟨i, s, hsealed⟩ : ∃ i s, (q.step (.finalize id)).Sealed root id i v s := by
    rcases q.finalize_cases id with ⟨_, d, hf⟩ | ⟨i, inc, v', hact, hcase⟩
    · rw [hf] at hfin
      cases hfin
    · rcases hcase with ⟨hv, hf⟩ | ⟨hnone, -⟩
      · rw [hf] at hfin
        obtain rfl := Except.ok.inj hfin
        obtain ⟨htable, hinc⟩ := active_eq_ok.1 hact
        obtain ⟨s, hs⟩ := hunderway.sealed i inc v' htable hinc hv
        exact ⟨i, s, by rw [Panel.step, hf]; exact hs⟩
      · obtain ⟨xs, hserving⟩ := hunderway.serving
        exact ⟨i, hserving.sealed hreach hrootq hwrite hact hnone hfin⟩
  obtain ⟨s₀, lookup, rfl⟩ := hsealed.reduced
  obtain ⟨hv, hblockers⟩ := Verdict.storable_reduce hcount
  have hs : s.Storable := by
    refine (hdatedq.step (e := .finalize id) trivial).storable (hreach.step _) hsealed.read fun r hr => ?_
    rw [← Option.some.inj (hsealed.ref.symm.trans hr)]
    exact hblockers
  refine (hsealed.run (hreach.step _) ?_ hspares hlasts').corroborated hs hv
  rw [(q.step_advances _).config_eq, hrootq]

/-- One role finishes, the other one runs out of time, and neither has been heard of when the run is
finalized: the snapshot of the second end arrives after that with the verdict, before the flush. -/
def lateNews : List Event := halfSchedule ++ [.arrange [1]]

/-- What happens after the run was finalized: it is finalized again, the snapshot of the first end arrives
at last, the late supervisor goes through its steps, the writer has its turn, and all the while the system
refuses everything. -/
def lateSteps : List Event :=
  [.refuse fun _ => some .permissionDenied, .finalize "r", .deliver 0, .comeBack 1, .observe 1, .decide 1,
    .settle 1, .take 0, .persist 0, .finalize "r"]

/-- The snapshots reach the scribe in the order in which they did not set out. -/
theorem documents_corroborate_late : ∃ p q v, p = fresh archiveConfig halfCrew ∧
    q = (p.start "r" (.ofReference "t") [.security, .build]).1.run lateNews ∧
    q.inFlight.map RunState.revision = [3, 4] ∧ (q.finalize "r").2 = .ok v ∧
    v.missingPerspectives = [.build] ∧
    (q.step (.finalize "r")).inFlight.map RunState.revision = [3] ∧
    ((q.step (.finalize "r")).run lateSteps).inFlight = [] ∧
    ((q.step (.finalize "r")).run lateSteps).Corroborated "runs" "r" v := by
  obtain ⟨p, hp⟩ : ∃ p, p = fresh archiveConfig halfCrew := ⟨_, rfl⟩
  obtain ⟨q, hq⟩ : ∃ q, q = (p.start "r" (.ofReference "t") [.security, .build]).1.run lateNews :=
    ⟨_, rfl⟩
  have hvalid : archiveConfig.validate = .ok () := rfl
  have hreach : Reachable p := hp ▸ .ofConfig (ofConfig_blank hvalid halfCrew)
  obtain ⟨v, hfin, hmissing, hcount⟩ : ∃ v, (q.finalize "r").2 = .ok v ∧
      v.missingPerspectives = [.build] ∧ v.totalFindings < wordBound := by
    rw [hq, hp]
    exact ⟨_, rfl, rfl, by decide⟩
  have hroot : p.config.workspaceRoot = some "runs" := by rw [hp]; rfl
  have hok : (p.start "r" (.ofReference "t") [.security, .build]).2 = .ok "r" := by
    rw [hp]
    decide +kernel
  -- the directory has no underscore in its name, and the panel is new
  have hapart : ∀ b, b ≠ "r" → p.Registered b → dirFor "runs" b ≠ dirFor "runs" "r" := fun b hb _ hdir =>
    hb (sanitize_injOn (by decide) (Workspace.dirFor_inj.1 hdir))
  have hidle : ∀ r ∈ p.scribe.registrations, r.workspace.dir = dirFor "runs" "r" → r.Idle := by
    rw [hp]
    intro r hr
    cases hr
  have hlate : ∀ s ∈ p.inFlight, s.runId = "r" → s.revision ≤ 2 := by
    rw [hp]
    intro s hs
    cases hs
  have hlasts : Lasting (p.start "r" (.ofReference "t") [.security, .build]).1 "runs" "r" lateNews :=
    lasting_of_ne_start (by simp [lateNews, halfSchedule])
  have hwritable : Writable (p.start "r" (.ofReference "t") [.security, .build]).1 "runs" "r"
      lateNews := by
    rw [hp]
    decide +kernel
  have hdated : ∀ e ∈ lateNews, e.Dated := by decide
  have hlasts' : (q.step (.finalize "r")).Lasting "runs" "r" lateSteps :=
    lasting_of_ne_start (by simp [lateSteps])
  have hcorroborated := documents_corroborate hreach hroot (by rw [hp]; exact Disk.rooted_blank)
    (by rw [hp]; decide) hok hapart hidle hlate hlasts hwritable hdated hq hfin hcount
    (by simp [lateSteps, Event.Spares]) hlasts'
  refine ⟨p, q, v, hp, hq, ?_, hfin, hmissing, ?_, ?_, hcorroborated⟩
  · rw [hq, hp]
    decide +kernel
  · rw [hq, hp]
    decide +kernel
  · rw [hq, hp]
    decide +kernel

end Panel

end ReviewPanel
