import TradeGate.Proofs.Audit.Operation

/-!
# A journal as a store

A journal is called again and again, over a directory that others may change between the calls, and
any write of its own may fail. `Journal.Refines` says that none of this shows in what it answers: it
holds the store behind its operations, every query is answered by that store, and what is logged
fails only with the batch of lines that it made due, and is held even then. What carries the run is
that a call leaves the store behind that its operation leaves (`Journal.onTurn_store`).
-/

namespace TradeGate

/-- The operation hands a record to a writer. -/
def Operation.isLogged : Operation → Bool
  | .logDecision _ | .logAlert _ => true
  | _ => false

namespace Journal

/-! ## Calls -/

/-- What a caller asks of a journal, with the faults of the writes there are. -/
inductive Request where
  | perform (operation : Operation) (fault : Option Nat)
  | flush (decisionFault alertFault : Option Nat)

/-- A call: the request, the time, and the directory as the call finds it. -/
structure Turn where
  request : Request
  now : Instant
  found : Directory

/-- The event that a call is for a store. -/
def Turn.event? (turn : Turn) : Option Event :=
  match turn.request with
  | .perform operation _ => some ⟨operation, turn.now⟩
  | .flush .. => none

/-- What a journal answers to a call, and the journal behind it. -/
def onTurn (turn : Turn) (journal : Journal) : Except DiskError Answer × Journal :=
  let journal := { journal with directory := turn.found }
  match turn.request with
  | .perform operation fault => journal.perform ⟨operation, turn.now⟩ fault
  | .flush decisionFault alertFault =>
    let (answer, journal) := journal.flush turn.now decisionFault alertFault
    (answer.map fun () => .done, journal)

/-- The journal behind calls of a new one. -/
def behind (directory : Directory) (bufferSize : Nat) (turns : List Turn) : Journal :=
  History.stateBehind onTurn (openIn directory bufferSize) turns

/-- How the write of one more record ends. A batch that is not full yet is not written. -/
def writeNext {ρ : Type} (render : ρ → String) (writer : LineWriter ρ) (record : ρ) (now : Instant)
    (fault : Option Nat) (found : Directory) : Except DiskError Unit :=
  if writer.pending + 1 < writer.capacity then .ok ()
  else (LineWriter.flush render { writer with buffer := writer.buffer ++ [record] } now fault
    found).1

/-- A call is answered as by a store, but for the writes it makes due. -/
structure Refines (journal : Journal) (turns : List Turn) (turn : Turn) : Prop where
  /-- The journal holds what a store behind the same operations holds. -/
  view : journal.store = Store.behind (turns.filterMap Turn.event?)
  /-- What hands no record to a writer is answered by that store, whatever fails. -/
  queried : ∀ operation fault, turn.request = .perform operation fault →
    operation.isLogged = false → (onTurn turn journal).1 =
      .ok (Store.perform ⟨operation, turn.now⟩ (Store.behind (turns.filterMap Turn.event?))).1
  /-- To log a decision fails only with the batch it completes. -/
  decision_logged : ∀ decision fault, turn.request = .perform (.logDecision decision) fault →
    (onTurn turn journal).1 = (writeNext decisionLine journal.decisions decision turn.now fault
      turn.found).map fun () => .done
  /-- To log an alert fails only with the batch it completes. -/
  alert_logged : ∀ alert fault, turn.request = .perform (.logAlert alert) fault →
    (onTurn turn journal).1 = (writeNext alertLine journal.alerts alert turn.now fault
      turn.found).map fun () => .done
  /-- Whatever was answered, a decision that was logged is the latest one held. -/
  decision_kept : ∀ decision fault, turn.request = .perform (.logDecision decision) fault →
    (onTurn turn journal).2.store.decisions = decision :: journal.store.decisions
  /-- Whatever was answered, an alert that was logged is the latest one held. -/
  alert_kept : ∀ alert fault, turn.request = .perform (.logAlert alert) fault →
    (onTurn turn journal).2.store.alerts = alert :: journal.store.alerts

/-! ## One call -/

/-- The store behind an operation is the one that a store would be in. -/
theorem perform_store (event : Event) (fault : Option Nat) (journal : Journal) :
    (journal.perform event fault).2.store = (journal.store.perform event).2 := by
  obtain ⟨operation, now⟩ := event
  cases operation <;> rfl

/-- What hands no record to a writer is answered by the store. -/
theorem perform_fst {event : Event} (h : event.operation.isLogged = false) (fault : Option Nat)
    (journal : Journal) :
    (journal.perform event fault).1 = .ok (journal.store.perform event).1 := by
  obtain ⟨operation, now⟩ := event
  cases operation with
  | logDecision | logAlert => cases h
  | _ => rfl

theorem flush_store (journal : Journal) (now : Instant) (decisionFault alertFault : Option Nat) :
    (journal.flush now decisionFault alertFault).2.store = journal.store := by
  unfold flush
  rcases journal.decisions.flush decisionLine now decisionFault journal.directory with
    ⟨_ | _, decisions, directory⟩ <;> rfl

/-- A call leaves the store behind that its operation leaves, and writing what waits leaves it
alone. -/
theorem onTurn_store (turn : Turn) (journal : Journal) :
    (onTurn turn journal).2.store = match turn.event? with
      | some event => (journal.store.perform event).2
      | none => journal.store := by
  obtain ⟨request, now, found⟩ := turn
  cases request with
  | perform operation fault => exact perform_store _ fault _
  | flush decisionFault alertFault => exact flush_store _ now decisionFault alertFault

theorem add_fst {ρ : Type} (render : ρ → String) (writer : LineWriter ρ) (record : ρ)
    (now : Instant) (fault : Option Nat) (found : Directory) :
    (writer.add render record now fault found).1 =
      writeNext render writer record now fault found := by
  unfold LineWriter.add writeNext LineWriter.pending
  by_cases hfull : writer.capacity ≤ writer.buffer.length + 1
  · have hnot : ¬ writer.buffer.length + 1 < writer.capacity := by omega
    simp [hfull, hnot]
  · have hwaits : writer.buffer.length + 1 < writer.capacity := by omega
    simp [hfull, hwaits]

/-! ## All calls -/

variable (directory : Directory) (bufferSize : Nat)

theorem behind_append_singleton (turns : List Turn) (turn : Turn) :
    behind directory bufferSize (turns ++ [turn]) =
      (onTurn turn (behind directory bufferSize turns)).2 :=
  History.stateBehind_append_singleton onTurn _ _ _

/-- A journal holds the store behind its operations, whatever became of its writes. -/
theorem behind_store (turns : List Turn) :
    (behind directory bufferSize turns).store = Store.behind (turns.filterMap Turn.event?) := by
  induction turns using List.reverseRecOn with
  | nil => rfl
  | append_singleton turns turn ih =>
    rw [behind_append_singleton, onTurn_store, ih, List.filterMap_append, History.filterMap_singleton]
    cases turn.event? with
    | none => simp
    | some event => rw [Option.toList_some, Store.behind_append_singleton]

/-- Every call of a journal is answered as by a store, but for the writes it makes due. -/
theorem refines_store (turns : List Turn) (turn : Turn) :
    Refines (behind directory bufferSize turns) turns turn := by
  have hview := behind_store directory bufferSize turns
  obtain ⟨request, now, found⟩ := turn
  refine ⟨hview, ?_, ?_, ?_, ?_, ?_⟩
  · rintro operation fault rfl hlogged
    rw [← hview]
    exact perform_fst hlogged fault _
  · rintro decision fault rfl
    exact congrArg (Except.map fun () => Answer.done)
      (add_fst decisionLine _ decision now fault found)
  · rintro alert fault rfl
    exact congrArg (Except.map fun () => Answer.done) (add_fst alertLine _ alert now fault found)
  · rintro decision fault rfl
    rfl
  · rintro alert fault rfl
    rfl

end Journal

end TradeGate
