import ReviewPanel.Table

/-!
# Phases of a role

Within a run a role goes from `pending` to `running` and from there to one of three terminal phases,
which it never leaves.
-/

namespace ReviewPanel

/-- How far a role has come in a run. -/
inductive Phase where
  /-- Registered, not started. -/
  | pending
  /-- Started. -/
  | running
  /-- Finished, with its findings published. -/
  | complete
  /-- Ended by an error. -/
  | failed
  /-- Ended by a deadline. -/
  | timedOut
deriving DecidableEq, Repr

namespace Phase

/-- The name of the phase. -/
def name : Phase → String
  | .pending => "pending"
  | .running => "running"
  | .complete => "complete"
  | .failed => "failed"
  | .timedOut => "timed_out"

instance : Named Phase where
  all := [.pending, .running, .complete, .failed, .timedOut]
  mem_all := by intro p; cases p <;> decide
  nodup_all := by decide
  name := name
  name_inj := by intro a b; cases a <;> cases b <;> simp [name]

/-- No phase follows. -/
def isTerminal : Phase → Bool
  | .complete | .failed | .timedOut => true
  | .pending | .running => false

/-- The phases that may follow. -/
def next : Phase → List Phase
  | .pending => [.running]
  | .running => [.complete, .failed, .timedOut]
  | .complete | .failed | .timedOut => []

/-- `b` may follow `a`. -/
def allows (a b : Phase) : Bool := a.next.contains b

theorem isTerminal_iff_next_eq_nil {p : Phase} : p.isTerminal ↔ p.next = [] := by
  cases p <;> decide

/-- A running role may end in any way. -/
theorem allows_of_isTerminal {p : Phase} (h : p.isTerminal = true) : running.allows p = true := by
  cases p with
  | pending | running => cases h
  | complete | failed | timedOut => rfl

end Phase

end ReviewPanel
