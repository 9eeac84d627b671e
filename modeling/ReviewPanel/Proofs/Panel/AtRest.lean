import ReviewPanel.Proofs.Panel.Succession
import ReviewPanel.Proofs.Panel.Verdicts

/-!
# The directory of a run that has its verdict

Once a run has its verdict, nothing changes it on the ledger, so no more snapshots of it set out.  Those
that are on their way by then are no news, because its registration knows the snapshot with the verdict,
which is newer.  If its directory is at rest as well, it stays so, and the documents right in it stay what
they are, for as long as the run is neither forgotten nor started again and no other start lays hands on the
directory.  Supervisors that come late, snapshots that arrive late, writers, other runs, and a system that
refuses to write change nothing.

## Main definitions

* `Panel.Resting` : the directory is at rest, and what is on its way is no news.

## Main statements

* `Panel.Reachable.enlisted` : **every run on the ledger has a registration.**
* `Panel.step_atRest` : **one step leaves a directory at rest, and the documents in it as they are.**
-/

namespace ReviewPanel.Panel

open Workspace (dirFor)

variable {p q q' : Panel} {root : String} {id b : RunId} {e : Event}

/-! ### Runs on the ledger are registered -/

theorem deliver_current (p : Panel) (k : Nat) : (p.deliver k).scribe.current = p.scribe.current := by
  cases hk : p.inFlight[k]? with
  | none => simp only [deliver, hk]
  | some s =>
    rw [deliver_eq_of_getElem? hk]
    exact Scribe.updateRun_current _ _ _ _

theorem foldl_deliver_current (p : Panel) (ks : List Nat) :
    (ks.foldl deliver p).scribe.current = p.scribe.current :=
  foldl_deliver_preserves (P := fun q => q.scribe.current = p.scribe.current)
    (fun q k hq => (q.deliver_current k).trans hq) ks rfl

theorem current_judged {d : Disk} {u : Ledger.Update RunState}
    (hq : q = p.arrivals.foldl deliver (({ p with disk := d }).accept u)) :
    q.scribe.current = p.scribe.current := by
  rw [hq, foldl_deliver_current, accept, deliver_current]
  rfl

/-- A step other than a start lets go of a run only if the run is forgotten. -/
theorem Upkeep.current_get? (h : Upkeep p root e q) (he : ∀ b item roles, e ≠ .start b item roles)
    (hforget : e ≠ .forget id) : q.scribe.current.get? id = p.scribe.current.get? id := by
  cases h with
  | nothing _ hs | published _ _ _ _ hs | wrote _ hs => rw [hs]
  | moved _ _ hs => rw [hs]
  | delivered k => rw [p.deliver_current k]
  | @judged b _ q' _ d u _ _ hq' _ hq =>
    have hs : q.scribe = (q'.scribe.flush q'.disk b).1 := congrArg Prod.fst hq
    rw [hs, (q'.scribe.onward_flush _ _).current_eq, current_judged hq']
  | @forgotten b _ _ hs =>
    have hne : id ≠ b := fun heq => hforget (by rw [heq])
    rw [hs, Scribe.unregister, Dictionary.get?_erase, if_neg hne]
  | took | refusing => rfl
  | persisted m => exact congrArg (·.get? id) (Scribe.update_current _ _ _ _)
  | opened => exact absurd rfl (he _ _ _)

/-- A start concerns the registration of its own run only. -/
theorem Opening.current_get? {item : WorkItem} {roles : List Role}
    {y : Panel × Except PanelError RunId} (h : Opening p root b item roles y)
    (hp : p.scribe.InOrder p.ledger root) (hne : id ≠ b) :
    y.1.scribe.current.get? id = p.scribe.current.get? id := by
  cases h with
  | refused => rfl
  | stuck hroom => exact hroom.current_of_ne hne
  | blocked hroom => exact hroom.current_of_ne hne
  | undone hroom =>
    simp only [Scribe.unregister, Scribe.register, Dictionary.get?_erase, Dictionary.get?_insert,
      if_neg hne]
    exact hroom.current_of_ne hne
  | launched hroom hdisk hcreate hu nextStamp =>
    have hopen := Opening.launched hroom hdisk hcreate hu nextStamp
    rw [(hopen.enrolled hp rfl).current, if_neg hne]

theorem Opening.enlisted {item : WorkItem} {roles : List Role} {y : Panel × Except PanelError RunId}
    (h : Opening p root b item roles y) (hp : p.scribe.InOrder p.ledger root) (hreg : y.1.Registered b)
    (hbefore : p.Registered b → p.scribe.current.get? b ≠ none) :
    y.1.scribe.current.get? b ≠ none := by
  cases h with
  | refused => exact hbefore hreg
  | stuck hroom => exact absurd hroom.1 hreg
  | blocked hroom => exact absurd hroom.1 hreg
  | undone hroom => exact absurd hroom.1 hreg
  | launched hroom hdisk hcreate hu nextStamp =>
    have hopen := Opening.launched hroom hdisk hcreate hu nextStamp
    rw [(hopen.enrolled hp rfl).current, if_pos rfl]
    exact Option.some_ne_none _

/-- **Every run on the ledger has a registration**, if documents are kept. -/
theorem Reachable.enlisted (h : Reachable p) (hroot : p.config.workspaceRoot = some root)
    (hreg : p.Registered id) : p.scribe.current.get? id ≠ none := by
  induction h with
  | ofConfig h => exact absurd hreg ((not_registered_ofConfig h).2 id)
  | @step p h e ih =>
    have hroot' : p.config.workspaceRoot = some root := by
      rwa [(p.step_advances e).config_eq] at hroot
    rcases e.start_or_other with ⟨b, item, roles, rfl⟩ | he
    · have hopen := start_opening hroot' b item roles
      by_cases hb : id = b
      · subst hb
        exact hopen.enlisted (h.inOrder hroot') hreg (ih hroot')
      · rw [Panel.step, hopen.current_get? (h.inOrder hroot') hb]
        refine ih hroot' ?_
        rwa [Registered, Panel.step, start_get?_of_ne p hb] at hreg
    · rcases (p.step_move e).registered hreg with hbefore | ⟨item, roles, heq⟩
      · by_cases hforget : e = .forget id
        · subst hforget
          rw [Panel.step] at hreg ⊢
          rcases p.forget_cases id with ⟨_, hf⟩ | ⟨_, _, _, _, -, hgone, hf⟩
          · rw [hf]
            exact ih hroot' hbefore
          · rw [hf] at hreg
            exact absurd hgone hreg
        · rw [(step_upkeep hroot' e).current_get? he hforget]
          exact ih hroot' hbefore
      · exact absurd heq (he id item roles)

/-! ### Starts -/

theorem Room.atRest {ledger : Ledger} {table : Dictionary Nat} {scribe : Scribe}
    (h : Room q b ledger table scribe) (hrest : q.scribe.AtRest root id) : scribe.AtRest root id := by
  rcases h.2 with ⟨-, -, rfl⟩ | ⟨-, -, rfl⟩
  · exact hrest
  · exact hrest.unregister b

theorem Enrolled.atRest (h : Enrolled q q' root b) (hdir : dirFor root b ≠ dirFor root id)
    (hrest : q.scribe.AtRest root id) : q'.scribe.AtRest root id := by
  obtain ⟨⟨r, hr, hw, -⟩, hothers, hcurrent, -⟩ := h
  refine hrest.grow hothers (fun r' hr' => ?_) fun b' i hi hcur => ?_
  · rw [← Option.some.inj (hr.symm.trans hr'), hw]
    exact .inl hdir
  · rw [hcurrent] at hcur
    split_ifs at hcur
    · exact absurd (Option.some.inj hcur).symm hi
    · exact hcur

theorem Opening.atRest {item : WorkItem} {roles : List Role} {y : Panel × Except PanelError RunId}
    (hopen : Opening q root b item roles y) (hin : q.scribe.InOrder q.ledger root)
    (hrest : q.scribe.AtRest root id)
    (hthere : q.disk.reach (q.disk.locate root ++ [sanitize id]) = .ok .directory)
    (hspares : dirFor root b = dirFor root id → y.1.disk = q.disk) : y.1.scribe.AtRest root id := by
  cases hopen with
  | refused => exact hrest
  | stuck hroom | blocked hroom => exact hroom.atRest hrest
  | undone hroom => exact (hroom.atRest hrest).register_unregister (hroom.inOrder hin) _
  | launched hroom hdisk hcreate hu nextStamp =>
    have hopen := Opening.launched hroom hdisk hcreate hu nextStamp
    exact (hopen.enrolled hin rfl).atRest (hopen.dir_ne hin rfl hthere hspares) hrest

/-! ### Other steps -/

theorem VerdictOnDisk.writes {d : Disk} (h : VerdictOnDisk q b d) (hin : q.scribe.InOrder q.ledger root)
    (hrest : q.scribe.AtRest root id) (hb : b ≠ id) :
    Disk.Writes (Disk.Beside (q.disk.locate root ++ [sanitize id])) q.disk d := by
  rcases h with rfl | ⟨w, v, hw, hwrite⟩
  · exact .refl
  · obtain ⟨r, hr, rfl⟩ := Option.map_eq_some_iff.1 hw
    obtain ⟨i, hi, hr⟩ := Option.bind_eq_some_iff.1 hr
    refine (Workspace.writeDocument_writes hwrite).mono ?_
    rintro _ rfl
    exact hin.beside hr (fun hdir => hb (hrest.own b i r hi hr hdir)) q.disk _

theorem publish_writes {inc : Incarnation} (hwired : q.Wired) (hinc : inc ∈ q.incarnations)
    (hroot : q.config.workspaceRoot = some root) (id : RunId) (role : Role) (fs : List Finding) :
    Disk.Writes (Disk.Beside (q.disk.locate root ++ [sanitize id])) q.disk
      (inc.slots.publish q.disk role fs).2.1 := by
  rcases inc.slots.publish_disk q.disk role fs with hsame | ⟨-, w, hw, hwrite⟩
  · rw [hsame]
    exact .refl
  · rw [hwired.workspaces inc hinc, workspaceFor, hroot] at hw
    obtain rfl := Option.some.inj hw
    refine (Workspace.writeDocument_writes hwrite).mono ?_
    rintro _ rfl
    rw [Workspace.locate_findingsDir]
    exact Disk.beside_of_length (by simp)

/-! ### What is on its way -/

/-- The directory of the run is at rest, and what is on its way to the registration of the run is no news
to it. -/
structure Resting (q : Panel) (root : String) (id : RunId) : Prop where
  atRest : q.scribe.AtRest root id
  told : ∀ s ∈ q.inFlight, s.runId = id → ∀ n, q.scribe.current.get? id = some n →
    q.scribe.Knows n s.revision

namespace Resting

theorem frame (h : q.Resting root id) (hrest : q'.scribe.AtRest root id)
    (hflight : ∀ s ∈ q'.inFlight, s.runId = id → s ∈ q.inFlight)
    (hcurrent : q'.scribe.current.get? id = q.scribe.current.get? id)
    (hknows : ∀ n k, q.scribe.Knows n k → q'.scribe.Knows n k) : q'.Resting root id where
  atRest := hrest
  told s hs hid n hn := hknows n _ (h.told s (hflight s hs hid) hid n (hcurrent ▸ hn))

/-- **A snapshot that arrives late changes nothing.** -/
theorem deliver (h : q.Resting root id) (hin : q.scribe.InOrder q.ledger root) (k : Nat) :
    (q.deliver k).Resting root id := by
  cases hk : q.inFlight[k]? with
  | none =>
    rw [show q.deliver k = q by simp only [Panel.deliver, hk]]
    exact h
  | some s =>
    have honward := (inOrder_deliver hin k).2.2
    refine h.frame ?_ (fun t ht _ => ?_) (by rw [deliver_current]) fun n k hn => hn.onward honward
    · rw [deliver_eq_of_getElem? hk]
      exact h.atRest.receive hin q.disk (h.told s (List.mem_of_getElem? hk))
    · rw [deliver_eq_of_getElem? hk] at ht
      exact List.mem_of_mem_eraseIdx ht

theorem foldl_deliver (h : q.Resting root id) (hin : q.scribe.InOrder q.ledger root) (ks : List Nat) :
    (ks.foldl Panel.deliver q).Resting root id :=
  (inOrder_foldl_deliver (P := fun q => q.Resting root id) (fun _ k hin h => h.deliver hin k) hin ks h).2

theorem post {α : Type} {u : Ledger.Update α} (h : q.Resting root id) (hne : u.published.runId ≠ id) :
    (q.post u).Resting root id := by
  refine h.frame h.atRest (fun s hs hid => ?_) rfl fun _ _ hk => hk
  rcases List.mem_append.1 hs with hs | hs
  · exact hs
  · exact absurd (List.mem_singleton.1 hs ▸ hid) hne

/-- Another run has got its verdict, and its documents are about to be flushed. -/
theorem judged (h : q.Resting root id) (hin : q.scribe.InOrder q.ledger root) {v : VerdictRef} {d : Disk}
    {u : Ledger.Update RunState} (hu : q.ledger.attach b v = .ok u) (hb : b ≠ id)
    (hq' : q' = q.arrivals.foldl Panel.deliver (({ q with disk := d }).accept u)) :
    q'.Resting root id := by
  have ha := Ledger.attach_advance hu
  have hposted : (({ q with disk := d } : Panel).post u).Resting root id :=
    Resting.post (h.frame h.atRest (fun _ hs _ => hs) rfl fun _ _ hk => hk) (by rwa [ha.runId_eq])
  rw [hq']
  exact (hposted.deliver (hin.advance ha) _).foldl_deliver
    (inOrder_accept (p := { q with disk := d }) hin ha).1 _

theorem flush (h : q.Resting root id) (hb : b ≠ id)
    (hs : q'.scribe = (q.scribe.flush q.disk b).1) (hf : q'.inFlight = q.inFlight) :
    q'.Resting root id := by
  have honward := q.scribe.onward_flush q.disk b
  rw [← hs] at honward
  refine h.frame ?_ (fun _ hs _ => hf ▸ hs) (by rw [honward.current_eq]) fun _ _ hk => hk.onward honward
  rw [hs]
  exact h.atRest.updateRun hb fun r => (Registration.Onward.flush r _).workspace_eq

end Resting

/-- **One step** leaves a directory at rest, and the documents in it as they are, if the run has its
verdict and the step neither finalizes nor forgets nor starts it. -/
theorem step_atRest (hrest : q.Resting root id) (hin : q.scribe.InOrder q.ledger root)
    (hwired : q.Wired) (hroot : q.config.workspaceRoot = some root)
    (hthere : q.disk.reach (q.disk.locate root ++ [sanitize id]) = .ok .directory)
    {s : RunState} (hread : q.ledger.read id = .ok s) (hjudged : s.verdict.isSome = true)
    (hfinalize : e ≠ .finalize id) (hspares : e.Spares id) (hdir : q.SparesDirectory root id e) :
    (q.step e).Resting root id ∧
      Disk.Leaves (q.disk.locate root ++ [sanitize id]) q.disk (q.step e).disk := by
  have hup := step_upkeep hroot e
  generalize hq' : q.step e = q' at hup ⊢
  -- what tells the scribe nothing
  have hquiet : q'.scribe = q.scribe → q'.inFlight = q.inFlight → q'.Resting root id := fun hs hf =>
    hrest.frame (hs ▸ hrest.atRest) (fun _ hs _ => hf ▸ hs) (by rw [hs]) fun _ _ hk => hs ▸ hk
  cases hup with
  | nothing _ hs hd hf => exact ⟨hquiet hs hf, hd ▸ .refl _ _⟩
  | @moved _ _ b _ _ _ u hu _ hs hd hf =>
    have hb : b ≠ id := by
      -- the ledger lets nobody move a role of a run that has its verdict
      rintro rfl
      obtain ⟨x, hx, rfl⟩ := Ledger.read_eq_ok.1 hread
      obtain ⟨x', -, hx', hv, -⟩ := Ledger.transition_eq_ok.1 hu
      obtain rfl := Option.some.inj (hx.symm.trans hx')
      rw [show (x.snapshot b).verdict = x.verdict from rfl, hv] at hjudged
      cases hjudged
    have hposted := hrest.post (u := u) (by rwa [(Ledger.transition_advance hu).runId_eq])
    refine ⟨hposted.frame (hs ▸ hrest.atRest) (fun t ht _ => ?_) (by rw [hs]; rfl)
      fun _ _ hk => hs ▸ hk, hd ▸ .refl _ _⟩
    rwa [hf] at ht
  | delivered k =>
    rw [(inOrder_deliver hin k).2.1]
    exact ⟨hrest.deliver hin k, .refl _ _⟩
  | published hinc role fs _ hs hd hf =>
    exact ⟨hquiet hs hf, hd ▸ .of_writes (publish_writes hwired hinc hroot id role fs)⟩
  | wrote _ hs hd hf =>
    have hb := fun heq => hfinalize (congrArg Event.finalize heq)
    exact ⟨hquiet hs hf, .of_writes (hd.writes hin hrest.atRest hb)⟩
  | @judged b _ q₂ v d u hd hu hq₂ _ hq hf =>
    have hb := fun heq => hfinalize (congrArg Event.finalize heq)
    have hverdict := hd.writes hin hrest.atRest hb
    obtain ⟨hin₂, -, hd₂⟩ := inOrder_judged hin hu hq₂
    have hrest₂ := hrest.judged hin hu hb hq₂
    have hd' : q'.disk = (q₂.scribe.flush q₂.disk b).2 := congrArg Prod.snd hq
    refine ⟨hrest₂.flush hb (congrArg Prod.fst hq) hf, ?_⟩
    rw [hd']
    refine .of_writes (hverdict.trans ?_)
    rw [← Disk.locate_congr hverdict.here_eq root, ← hd₂]
    exact hrest₂.atRest.flush_writes hin₂ hb q₂.disk
  | @forgotten b _ _ hs hd hf =>
    have hb : id ≠ b := fun heq => hspares heq.symm
    refine ⟨hrest.frame (hs ▸ hrest.atRest.unregister b) (fun _ hs _ => hf ▸ hs) ?_ fun _ _ hk => ?_,
      hd ▸ .refl _ _⟩
    · rw [hs, Scribe.unregister, Dictionary.get?_erase, if_neg hb]
    · rw [hs]
      exact hk
  | took m =>
    exact ⟨hrest.frame (hrest.atRest.take m) (fun _ hs _ => hs) rfl
      fun _ _ hk => hk.onward (q.scribe.onward_take m), .refl _ _⟩
  | persisted m =>
    exact ⟨hrest.frame (hrest.atRest.persist q.disk m) (fun _ hs _ => hs)
      (by rw [Scribe.persist, Scribe.update_current])
      fun _ _ hk => hk.onward (q.scribe.onward_persist q.disk m),
      .of_writes (hrest.atRest.persist_writes hin q.disk m)⟩
  | refusing refusal retention =>
    exact ⟨hrest.frame hrest.atRest (fun _ hs _ => hs) rfl fun _ _ hk => hk,
      .of_refusing _ _ refusal retention⟩
  | @opened b item roles y hopen =>
    have hspares' : dirFor root b = dirFor root id → y.1.disk = q.disk := hq' ▸ hdir
    have hflight : y.1.inFlight = q.inFlight := hq' ▸ q.start_inFlight b item roles
    refine ⟨hrest.frame (hopen.atRest hin hrest.atRest hthere hspares') (fun _ hs _ => hflight ▸ hs)
      (hopen.current_get? hin fun heq => hspares heq.symm) ?_, hopen.leaves hin hthere hspares'⟩
    rintro n k ⟨r, l, hr, hl, hle⟩
    have hlt := (List.getElem?_eq_some_iff.1 hr).1
    exact ⟨r, l, (hopen.registrations_eq hin hlt).trans hr, hl, hle⟩

end ReviewPanel.Panel
