import TradeGate.Proofs.Audit.Recovery
import TradeGate.Proofs.Audit.Separation

/-!
# Writing both files

A flush is to leave nothing waiting, whatever fails, and to put the decisions and the alerts that
waited into their files, each unless its own write fails (`Journal.FlushesBoth`). It does unless the
decisions cannot be written while alerts wait: then the alerts are not tried, and wait on
(`Journal.flushesBoth_iff`). What carries the proof is that the two writers of a journal have no file
in common (`Journal.beside_behind`).
-/

namespace TradeGate

namespace Journal

open LineWriter (Empties dayPath isDayName)

/-! ## A flush -/

section Flush

variable (journal : Journal) (now : Instant) (decisionFault alertFault : Option Nat)

/-- What comes of writing the decisions that wait. -/
def writeDecisions : Except DiskError Unit × LineWriter Decision × Directory :=
  journal.decisions.flush decisionLine now decisionFault journal.directory

/-- What comes of writing the alerts that wait, after the decisions. -/
def writeAlerts : Except DiskError Unit × LineWriter AlertRecord × Directory :=
  journal.alerts.flush alertLine now alertFault (journal.writeDecisions now decisionFault).2.2

/-- Behind a flush nothing waits, and what waited is in its file unless its own write failed. -/
structure FlushesBoth : Prop where
  decisions_empty : (journal.flush now decisionFault alertFault).2.decisions.pending = 0
  alerts_empty : (journal.flush now decisionFault alertFault).2.alerts.pending = 0
  decisions_delivered : (journal.writeDecisions now decisionFault).1 = .ok () →
    journal.decisions.Delivers decisionLine now.date journal.directory
      (journal.flush now decisionFault alertFault).2.directory
  alerts_delivered : (journal.writeAlerts now decisionFault alertFault).1 = .ok () →
    journal.alerts.Delivers alertLine now.date journal.directory
      (journal.flush now decisionFault alertFault).2.directory

variable {journal now decisionFault alertFault}

theorem flush_of_ok (h : (journal.writeDecisions now decisionFault).1 = .ok ()) :
    journal.flush now decisionFault alertFault =
      ((journal.writeAlerts now decisionFault alertFault).1,
        { journal with
          decisions := (journal.writeDecisions now decisionFault).2.1
          alerts := (journal.writeAlerts now decisionFault alertFault).2.1
          directory := (journal.writeAlerts now decisionFault alertFault).2.2 }) := by
  unfold flush writeAlerts
  unfold writeDecisions at h ⊢
  generalize journal.decisions.flush decisionLine now decisionFault journal.directory = result at *
  obtain ⟨answer, decisions, directory⟩ := result
  obtain rfl : answer = .ok () := h
  rfl

theorem flush_of_error {cause : DiskError}
    (h : (journal.writeDecisions now decisionFault).1 = .error cause) :
    journal.flush now decisionFault alertFault =
      (.error cause, { journal with
        decisions := (journal.writeDecisions now decisionFault).2.1
        directory := (journal.writeDecisions now decisionFault).2.2 }) := by
  unfold flush
  unfold writeDecisions at h ⊢
  generalize journal.decisions.flush decisionLine now decisionFault journal.directory = result at *
  obtain ⟨answer, decisions, directory⟩ := result
  obtain rfl : answer = .error cause := h
  rfl

/-- Where the decisions are written the alerts get their turn, and neither write touches a file of
the other. -/
theorem flushesBoth_of_ok (h : journal.decisions.Beside journal.alerts journal.directory)
    (hok : (journal.writeDecisions now decisionFault).1 = .ok ()) :
    journal.FlushesBoth now decisionFault alertFault := by
  obtain ⟨hdecisions, hbeside⟩ : Empties decisionLine journal.decisions now journal.directory
      (journal.writeDecisions now decisionFault) ∧ _ := h.flush
  obtain ⟨halerts, -⟩ : Empties alertLine journal.alerts now
      (journal.writeDecisions now decisionFault).2.2
      (journal.writeAlerts now decisionFault alertFault) ∧ _ := hbeside.symm.flush
  have hlater := h.follows (halerts.follows.trans hdecisions.follows)
  constructor
  · rw [flush_of_ok hok]
    exact List.length_eq_zero_iff.2 hdecisions.buffer_eq
  · rw [flush_of_ok hok]
    exact List.length_eq_zero_iff.2 halerts.buffer_eq
  · rw [flush_of_ok hok]
    intro _ hwaits
    obtain ⟨number, hfile, hread⟩ := hdecisions.delivers hok hwaits
    have hfile := hfile.of_holds halerts.holds
    refine ⟨number, hfile, ?_⟩
    rw [← hread]
    exact halerts.others number (hlater.separate number (hfile.reaches h.plain))
  · rw [flush_of_ok hok]
    intro hanswer hwaits
    obtain ⟨number, hfile, hread⟩ := halerts.delivers hanswer hwaits
    refine ⟨number, hfile, ?_⟩
    have hother : ¬ journal.decisions.Reaches (journal.writeDecisions now decisionFault).2.2 number :=
      fun hreaches => hlater.separate number (hreaches.of_holds halerts.holds)
        (hfile.reaches h.other_plain)
    rw [← hdecisions.others number hother]
    exact hread

/-- What becomes of a flush when the decisions cannot be written: the alerts wait on, and their
files stay as they were. -/
structure Stops (journal : Journal) (now : Instant) (decisionFault alertFault : Option Nat)
    (cause : DiskError) : Prop where
  answer : (journal.flush now decisionFault alertFault).1 = .error cause
  decisions_empty : (journal.flush now decisionFault alertFault).2.decisions.pending = 0
  alerts_eq : (journal.flush now decisionFault alertFault).2.alerts = journal.alerts
  files : ∀ number,
    journal.alerts.Reaches (journal.flush now decisionFault alertFault).2.directory number →
    (journal.flush now decisionFault alertFault).2.directory.read number =
      journal.directory.read number

theorem stops_of_error (h : journal.decisions.Beside journal.alerts journal.directory)
    {cause : DiskError} (herror : (journal.writeDecisions now decisionFault).1 = .error cause) :
    journal.Stops now decisionFault alertFault cause := by
  obtain ⟨hdecisions, -⟩ : Empties decisionLine journal.decisions now journal.directory
      (journal.writeDecisions now decisionFault) ∧ _ := h.flush
  constructor
  · rw [flush_of_error herror]
  · rw [flush_of_error herror]
    exact List.length_eq_zero_iff.2 hdecisions.buffer_eq
  · rw [flush_of_error herror]
  · rw [flush_of_error herror]
    intro number halert
    have hlater := h.follows hdecisions.follows
    exact hdecisions.others number fun hdecision => hlater.separate number hdecision halert

/-- A flush keeps the writers apart. -/
theorem beside_flush (h : journal.decisions.Beside journal.alerts journal.directory) :
    (journal.flush now decisionFault alertFault).2.decisions.Beside
      (journal.flush now decisionFault alertFault).2.alerts
      (journal.flush now decisionFault alertFault).2.directory := by
  have hbeside : (journal.writeDecisions now decisionFault).2.1.Beside journal.alerts
      (journal.writeDecisions now decisionFault).2.2 := h.flush.2
  cases hanswer : (journal.writeDecisions now decisionFault).1 with
  | error cause =>
    rw [flush_of_error hanswer]
    exact hbeside
  | ok done =>
    rw [flush_of_ok hanswer]
    exact hbeside.symm.flush.2.symm

end Flush

/-! ## Calls -/

/-- Whatever else others do between the calls, they neither move nor link files. -/
def Unmoved (directory : Directory) (bufferSize : Nat) (turns : List Turn) : Prop :=
  ∀ before turn after, turns = before ++ turn :: after →
    turn.found.Follows (behind directory bufferSize before).directory

section Run

variable {directory : Directory} {bufferSize : Nat} {turns : List Turn} {turn : Turn}

theorem unmoved_nil : Unmoved directory bufferSize [] :=
  fun _ _ _ hsplit => nomatch List.append_eq_nil_iff.1 hsplit.symm

theorem unmoved_append_singleton : Unmoved directory bufferSize (turns ++ [turn]) ↔
    Unmoved directory bufferSize turns ∧
      turn.found.Follows (behind directory bufferSize turns).directory := by
  constructor
  · refine fun h => ⟨fun before other after hsplit => ?_, h turns turn [] rfl⟩
    exact h before other (after ++ [turn]) (by rw [hsplit, List.append_assoc, List.cons_append])
  · rintro ⟨hbefore, hlast⟩
    exact History.forall_split_append_singleton hbefore hlast

/-- A call keeps the writers apart. -/
theorem beside_onTurn {journal : Journal}
    (h : journal.decisions.Beside journal.alerts journal.directory)
    (hfound : turn.found.Follows journal.directory) :
    (onTurn turn journal).2.decisions.Beside (onTurn turn journal).2.alerts
      (onTurn turn journal).2.directory := by
  obtain ⟨request, now, found⟩ := turn
  have hstart : ({ journal with directory := found } : Journal).decisions.Beside
      ({ journal with directory := found } : Journal).alerts
      ({ journal with directory := found } : Journal).directory := h.follows hfound
  cases request with
  | perform operation fault =>
    cases operation with
    | logDecision decision => exact hstart.add decision
    | logAlert alert => exact (hstart.symm.add alert).symm
    | _ => exact hstart
  | flush => exact beside_flush hstart

/-- The writers of a new journal hold nothing open, and no name is one of both. -/
theorem beside_openIn (hsound : directory.Sound) (hapart : directory.Apart) (bufferSize : Nat) :
    (openIn directory bufferSize).decisions.Beside (openIn directory bufferSize).alerts
      (openIn directory bufferSize).directory := by
  have hmake : directory.make.Follows directory := Directory.follows_make hsound hapart
  refine LineWriter.beside_of_idle isPlain_decisions.no_slash isPlain_alerts.no_slash ?_ hmake.sound
    hmake.apart rfl rfl
  intro date otherDate hsame
  have hday : isDayName "alerts" (dayPath "decisions" date) = false :=
    LineWriter.isDayName_eq_false (by decide) (by decide) (LineWriter.isDayName_dayPath _ date)
  replace hsame : dayPath "decisions" date = dayPath "alerts" otherDate := hsame
  rw [hsame, LineWriter.isDayName_dayPath] at hday
  exact nomatch hday

theorem beside_behind (hsound : directory.Sound) (hapart : directory.Apart)
    (hturns : Unmoved directory bufferSize turns) :
    (behind directory bufferSize turns).decisions.Beside (behind directory bufferSize turns).alerts
      (behind directory bufferSize turns).directory := by
  induction turns using List.reverseRecOn with
  | nil => exact beside_openIn hsound hapart bufferSize
  | append_singleton turns turn ih =>
    obtain ⟨hbefore, hfound⟩ := unmoved_append_singleton.1 hturns
    rw [behind_append_singleton]
    exact beside_onTurn (ih hbefore) hfound

/-- Behind calls of a journal that nobody moves files of, a flush does what it is to do if and only
if the decisions that wait can be written or no alert waits. Otherwise it stops there. -/
theorem flushesBoth_iff (hsound : directory.Sound) (hapart : directory.Apart) {now : Instant}
    {decisionFault alertFault : Option Nat} {found : Directory}
    (hturns : Unmoved directory bufferSize
      (turns ++ [⟨.flush decisionFault alertFault, now, found⟩])) :
    let journal := { behind directory bufferSize turns with directory := found }
    (journal.FlushesBoth now decisionFault alertFault ↔
      (journal.writeDecisions now decisionFault).1 = .ok () ∨ journal.alerts.pending = 0) ∧
    ∀ cause, (journal.writeDecisions now decisionFault).1 = .error cause →
      journal.Stops now decisionFault alertFault cause := by
  intro journal
  obtain ⟨hbefore, hfound⟩ := unmoved_append_singleton.1 hturns
  have hbeside : journal.decisions.Beside journal.alerts journal.directory :=
    (beside_behind hsound hapart hbefore).follows hfound
  refine ⟨?_, fun cause herror => stops_of_error hbeside herror⟩
  cases hanswer : (journal.writeDecisions now decisionFault).1 with
  | ok done => exact iff_of_true (flushesBoth_of_ok hbeside hanswer) (.inl rfl)
  | error cause =>
    have hstops : journal.Stops now decisionFault alertFault cause := stops_of_error hbeside hanswer
    constructor
    · intro hboth
      right
      rw [← hboth.alerts_empty, hstops.alerts_eq]
    · rintro (hok | hnone)
      · exact nomatch hok
      · refine ⟨hstops.decisions_empty, ?_, ?_, ?_⟩
        · rw [hstops.alerts_eq, hnone]
        · rw [hanswer]
          exact nofun
        · exact fun _ hwaits => absurd (List.length_eq_zero_iff.1 hnone) hwaits

end Run

/-! ## Sample runs -/

/-- A decision and an alert that wait to be written. -/
def sampleTurns : List Turn :=
  [⟨.perform (.logDecision (sampleDecision "a" .epoch)) none, .epoch, .empty⟩,
    ⟨.perform (.logAlert sampleAlert) none, .epoch, .empty⟩]

theorem unmoved_sampleTurns {decisionFault alertFault : Option Nat} {found : Directory}
    (hfound : found.Follows .empty) : Unmoved .empty 10
      (sampleTurns ++ [⟨.flush decisionFault alertFault, .epoch, found⟩]) := by
  have hempty : Directory.empty.Follows .empty :=
    Directory.follows_self Directory.sound_empty Directory.tidy_empty.apart
  have hsplit : sampleTurns = ([] ++ [⟨.perform (.logDecision (sampleDecision "a" .epoch)) none,
    .epoch, .empty⟩]) ++ [⟨.perform (.logAlert sampleAlert) none, .epoch, .empty⟩] := rfl
  rw [unmoved_append_singleton, hsplit, unmoved_append_singleton, unmoved_append_singleton]
  exact ⟨⟨⟨unmoved_nil, hempty⟩, hempty⟩, hfound⟩

/-- What comes of writing the sample decision. -/
theorem writeDecisions_sampleTurns {found : Directory} (hsound : found.Sound) :
    (Journal.writeDecisions { behind .empty 10 sampleTurns with directory := found } .epoch none).1 =
      LineWriter.outcome found (dayPath "decisions" (Instant.date .epoch)) none := by
  have hidle : (behind .empty 10 sampleTurns).decisions.Synced found := nofun
  have hwaits : (behind .empty 10 sampleTurns).decisions.buffer ≠ [] := List.cons_ne_nil _ _
  exact (LineWriter.flush_step hidle hsound .epoch none).answer_eq hwaits

/-- The alert cannot be written, and the decision is. -/
theorem flushesBoth_sampleTurns :
    let journal := { behind .empty 10 sampleTurns with directory := .empty }
    Directory.empty.Sound ∧ Directory.empty.Apart ∧
      Unmoved .empty 10 (sampleTurns ++ [⟨.flush none (some 5), .epoch, .empty⟩]) ∧
      journal.decisions.pending = 1 ∧ journal.alerts.pending = 1 ∧
      journal.FlushesBoth .epoch none (some 5) := by
  intro journal
  have hapart := Directory.tidy_empty.apart
  have hturns : Unmoved .empty 10 (sampleTurns ++ [⟨.flush none (some 5), .epoch, .empty⟩]) :=
    unmoved_sampleTurns (Directory.follows_self Directory.sound_empty hapart)
  have hok : (journal.writeDecisions .epoch none).1 = .ok () := by
    rw [writeDecisions_sampleTurns Directory.sound_empty]
    decide +kernel
  exact ⟨Directory.sound_empty, hapart, hturns, rfl, rfl,
    (flushesBoth_iff Directory.sound_empty hapart hturns).1.2 (.inl hok)⟩

/-- A folder stands where the file of the decisions is to be. -/
def blocked : Directory :=
  Directory.empty.put (Directory.home ++ [dayPath "decisions" (Instant.date .epoch)]) .folder

theorem follows_blocked : blocked.Follows .empty := by
  have hnone : ∀ place number, blocked.entry? place ≠ some (.file number) := by
    intro place number hentry
    rcases Directory.eq_or_of_entry?_put (by decide) hentry with ⟨-, hfolder⟩ | hold
    · exact nomatch hfolder
    · exact absurd (Directory.sound_empty _ _ hold) (Nat.not_lt_zero _)
  exact ⟨fun _ _ hentry => absurd hentry (hnone _ _), fun _ _ _ hentry => absurd hentry (hnone _ _),
    Nat.le_refl _, fun _ _ hentry => absurd hentry (hnone _ _)⟩

/-- The decision cannot be written, and so the alert, which could be, waits on. -/
theorem not_flushesBoth_blocked :
    let journal := { behind .empty 10 sampleTurns with directory := blocked }
    Unmoved .empty 10 (sampleTurns ++ [⟨.flush none none, .epoch, blocked⟩]) ∧
      (journal.writeAlerts .epoch none none).1 = .ok () ∧
      (journal.flush .epoch none none).1 = .error .isFolder ∧
      (journal.flush .epoch none none).2.alerts.pending = 1 ∧
      ¬ journal.FlushesBoth .epoch none none := by
  intro journal
  have herror : (journal.writeDecisions .epoch none).1 = .error .isFolder := by
    rw [writeDecisions_sampleTurns follows_blocked.sound]
    decide +kernel
  have halert : (journal.writeAlerts .epoch none none).1 = .ok () := by
    have hleft : (journal.writeDecisions .epoch none).2.2 = blocked := by decide +kernel
    have hidle : journal.alerts.Synced blocked := nofun
    have hwaits : journal.alerts.buffer ≠ [] := List.cons_ne_nil _ _
    have houtcome : LineWriter.outcome blocked (dayPath "alerts" (Instant.date .epoch)) none =
        .ok () := by decide +kernel
    unfold writeAlerts
    rw [hleft, ← houtcome]
    exact (LineWriter.flush_step hidle follows_blocked.sound .epoch none).answer_eq hwaits
  have hpending : (journal.flush .epoch none none).2.alerts.pending = 1 := by
    rw [flush_of_error herror]
    rfl
  refine ⟨unmoved_sampleTurns follows_blocked, halert, ?_, hpending, fun hboth => ?_⟩
  · rw [flush_of_error herror]
  · rw [hboth.alerts_empty] at hpending
    exact nomatch hpending

end Journal

end TradeGate
