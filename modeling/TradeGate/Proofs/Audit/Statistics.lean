import TradeGate.Proofs.Audit.Retention

/-!
# Statistics against records

A store keeps decisions and alerts, and beside them a row of numbers for each day. The two are
changed by different operations and cut by different rules: a cleanup drops records older than an
instant, and rows of days before that of the instant. `DailyStats.Counts` says that a row has the
numbers of some decisions and alerts, and `Store.row_counts_stored` that each row has those of the
stored ones of its day, unless a cleanup reached into the day.
-/

namespace TradeGate

/-- The first instant of a date. -/
def Date.start? (date : Date) : Option Instant :=
  Instant.ofParts? (date.dayNumber * secondsPerDay) 0

namespace Instant

theorem date_eq_of_start? {date : Date} {start : Instant} (h : date.start? = some start) :
    start.date = date := by
  obtain ⟨hseconds, -⟩ := parts_of_ofParts? h
  unfold Instant.date
  rw [hseconds, Int.mul_ediv_cancel _ (by decide)]

theorem start_le {date : Date} {start : Instant} (h : date.start? = some start) {t : Instant}
    (ht : t.date = date) : start ≤ t := by
  obtain ⟨hseconds, hnanos⟩ := parts_of_ofParts? h
  have hday : t.seconds / secondsPerDay = date.dayNumber := congrArg Date.dayNumber ht
  have ht' := t.nanos_nonneg
  rw [le_def]
  unfold ticks
  rw [hseconds, hnanos]
  unfold secondsPerDay nanosPerSecond at *
  omega

end Instant

/-! ## Numbers of a day -/

namespace DailyStats

/-- How many of the decisions are blocks that carry a tag. -/
def blocksTagged {α : Type} [DecidableEq α] (tag : Decision → Option α) (key : α)
    (decisions : List Decision) : Nat :=
  decisions.countP fun decision => decision.isBlock && tag decision = some key

/-- The row has the numbers of some decisions and alerts. -/
structure Counts (row : DailyStats) (decisions : List Decision) (alerts : List AlertRecord) :
    Prop where
  total : row.totalEvaluations = decisions.length
  executes : row.executeCount = decisions.countP Decision.isExecute
  blocks : row.blockCount = decisions.countP Decision.isBlock
  byCategory : row.blocksByCategory =
    Category.all.map fun category => (category, blocksTagged Decision.category category decisions)
  bySeverity : row.blocksBySeverity =
    Severity.all.map fun severity => (severity, blocksTagged Decision.severity severity decisions)
  sent : row.alertsSent = alerts.countP AlertRecord.sent
  rateLimited : row.alertsRateLimited = alerts.countP AlertRecord.rateLimited

variable {row : DailyStats} {decisions others : List Decision} {alerts otherAlerts : List AlertRecord}

theorem counts_empty (date : Date) : (empty date).Counts [] [] :=
  ⟨rfl, rfl, rfl, rfl, rfl, rfl, rfl⟩

/-- Numbers do not depend on the order. -/
theorem Counts.perm (h : row.Counts decisions alerts) (hdecisions : decisions.Perm others)
    (halerts : alerts.Perm otherAlerts) : row.Counts others otherAlerts where
  total := h.total.trans hdecisions.length_eq
  executes := h.executes.trans (hdecisions.countP_eq _)
  blocks := h.blocks.trans (hdecisions.countP_eq _)
  byCategory := h.byCategory.trans
    (List.map_congr_left fun _ _ => congrArg (Prod.mk _) (hdecisions.countP_eq _))
  bySeverity := h.bySeverity.trans
    (List.map_congr_left fun _ _ => congrArg (Prod.mk _) (hdecisions.countP_eq _))
  sent := h.sent.trans (halerts.countP_eq _)
  rateLimited := h.rateLimited.trans (halerts.countP_eq _)

section Tag

variable {α : Type} [DecidableEq α]

theorem countUp_map (key : α) (number : α → Nat) (keys : List α) :
    countUp key (keys.map fun other => (other, number other)) =
      keys.map fun other => (other, number other + if other = key then 1 else 0) := by
  unfold countUp
  rw [List.map_map]
  refine List.map_congr_left fun other _ => ?_
  by_cases h : other = key <;> simp [h]

variable (tag : Decision → Option α) (decision : Decision)

theorem blocksTagged_append_singleton (key : α) (decisions : List Decision) :
    blocksTagged tag key (decisions ++ [decision]) = blocksTagged tag key decisions +
      if decision.isBlock && tag decision = some key then 1 else 0 := by
  unfold blocksTagged
  rw [List.countP_append, List.countP_singleton]

/-- What is no block is counted under no tag. -/
theorem blocksTagged_append_of_not_isBlock (hblock : decision.isBlock = false) (key : α)
    (decisions : List Decision) :
    blocksTagged tag key (decisions ++ [decision]) = blocksTagged tag key decisions := by
  rw [blocksTagged_append_singleton, hblock, Bool.false_and, if_neg Bool.false_ne_true,
    Nat.add_zero]

/-- What has no tag is counted under none. -/
theorem blocksTagged_append_of_eq_none (htag : tag decision = none) (key : α)
    (decisions : List Decision) :
    blocksTagged tag key (decisions ++ [decision]) = blocksTagged tag key decisions := by
  rw [blocksTagged_append_singleton, htag]
  simp

/-- A block is counted under its tag. -/
theorem countUp_blocksTagged (hblock : decision.isBlock = true) {key : α}
    (htag : tag decision = some key) (keys : List α) (decisions : List Decision) :
    countUp key (keys.map fun key => (key, blocksTagged tag key decisions)) =
      keys.map fun key => (key, blocksTagged tag key (decisions ++ [decision])) := by
  rw [countUp_map]
  refine List.map_congr_left fun other _ => ?_
  rw [blocksTagged_append_singleton, hblock, htag]
  simp [eq_comm]

end Tag

theorem Counts.addDecision (h : row.Counts decisions alerts) (decision : Decision) :
    (row.addDecision decision).Counts (decisions ++ [decision]) alerts := by
  obtain ⟨htotal, hexecutes, hblocks, hcategory, hseverity, hsent, hlimited⟩ := h
  unfold DailyStats.addDecision countVerdict
  cases hverdict : decision.verdict with
  | execute =>
    have hexecute : decision.isExecute = true := decide_eq_true hverdict
    have hblock : decision.isBlock = false := decide_eq_false (by simp [hverdict])
    refine ⟨?_, ?_, ?_, ?_, ?_, hsent, hlimited⟩
    · simp [htotal]
    · simp [hexecutes, hexecute]
    · simp [hblocks, hblock]
    · simp only [hcategory, blocksTagged_append_of_not_isBlock _ _ hblock]
    · simp only [hseverity, blocksTagged_append_of_not_isBlock _ _ hblock]
  | block =>
    have hexecute : decision.isExecute = false := decide_eq_false (by simp [hverdict])
    have hblock : decision.isBlock = true := decide_eq_true hverdict
    refine ⟨?_, ?_, ?_, ?_, ?_, hsent, hlimited⟩
    · simp [htotal]
    · simp [hexecutes, hexecute]
    · simp [hblocks, hblock]
    · rw [hcategory]
      cases htag : decision.category with
      | none => simp only [blocksTagged_append_of_eq_none _ _ htag]
      | some category => exact countUp_blocksTagged _ _ hblock htag _ _
    · rw [hseverity]
      cases htag : decision.severity with
      | none => simp only [blocksTagged_append_of_eq_none _ _ htag]
      | some severity => exact countUp_blocksTagged _ _ hblock htag _ _

theorem Counts.addAlert (h : row.Counts decisions alerts) (alert : AlertRecord) :
    (row.addAlert alert).Counts decisions (alerts ++ [alert]) := by
  obtain ⟨htotal, hexecutes, hblocks, hcategory, hseverity, hsent, hlimited⟩ := h
  refine ⟨htotal, hexecutes, hblocks, hcategory, hseverity, ?_, ?_⟩
  · rw [List.countP_append, List.countP_singleton, ← hsent]
    rfl
  · rw [List.countP_append, List.countP_singleton, ← hlimited]
    rfl

end DailyStats

/-! ## Rows of days -/

namespace Store

/-- The row of a date, all zeros if there is none. -/
def row (store : Store) (date : Date) : DailyStats := (store.day? date).getD (.empty date)

/-- Days ascend, so that there is one row for a day at most. -/
def Ascending (days : List DailyStats) : Prop := days.Pairwise (·.date < ·.date)

theorem find?_eq_none_of_before {date : Date} {days : List DailyStats}
    (h : ∀ row ∈ days, date < row.date) : days.find? (·.date = date) = none := by
  refine List.find?_eq_none.2 fun row hrow hsame => ?_
  exact Int.lt_irrefl _ (of_decide_eq_true hsame ▸ h row hrow)

section ChangeDay

variable {change : DailyStats → DailyStats} (hchange : ∀ row, (change row).date = row.date)

include hchange

theorem ascending_changeDay (date : Date) {days : List DailyStats} (h : Ascending days) :
    Ascending (changeDay date change days) := by
  induction days with
  | nil => exact List.pairwise_singleton _ _
  | cons row rest ih =>
    obtain ⟨hfirst, hrest⟩ := List.pairwise_cons.1 h
    unfold changeDay
    split
    · exact List.pairwise_cons.2 ⟨fun other hother => by rw [hchange]; exact hfirst other hother, hrest⟩
    · split
      · rename_i hbefore
        refine List.pairwise_cons.2 ⟨fun other hother => ?_, h⟩
        rw [hchange]
        rcases List.mem_cons.1 hother with rfl | hother
        · exact hbefore
        · exact Int.lt_trans hbefore (hfirst other hother)
      · rename_i hsame hbefore
        refine List.pairwise_cons.2 ⟨fun other hother => ?_, ih hrest⟩
        rcases date_of_mem_changeDay hchange hother with hdate | ⟨known, hknown, hdate⟩
        · rw [hdate]
          have hne : row.date.dayNumber ≠ date.dayNumber := fun h => hsame (congrArg Date.mk h)
          exact Int.lt_iff_le_and_ne.2 ⟨Int.not_lt.1 hbefore, hne⟩
        · rw [← hdate]
          exact hfirst known hknown

/-- A change of a day shows in its row and in no other one. -/
theorem find?_changeDay (date other : Date) {days : List DailyStats} (h : Ascending days) :
    (changeDay date change days).find? (·.date = other) =
      if other = date then some (change ((days.find? (·.date = date)).getD (.empty date)))
      else days.find? (·.date = other) := by
  have hnew : (change (.empty date)).date = date := hchange _
  induction days with
  | nil =>
    by_cases hother : other = date
    · simp [changeDay, hnew, hother]
    · simp [changeDay, hnew, hother, Ne.symm hother]
  | cons row rest ih =>
    obtain ⟨hfirst, hrest⟩ := List.pairwise_cons.1 h
    unfold changeDay
    by_cases hsame : row.date = date
    · by_cases hother : other = date
      · simp [hsame, hother, hchange]
      · have hrow : row.date ≠ other := fun h => hother (h.symm.trans hsame)
        have hchanged : (change row).date ≠ other := by rwa [hchange]
        rw [if_pos hsame, if_neg hother, List.find?_cons_of_neg (by simpa using hchanged),
          List.find?_cons_of_neg (by simpa using hrow)]
    · by_cases hbefore : date < row.date
      · have hnone : (row :: rest).find? (·.date = date) = none :=
          find?_eq_none_of_before (List.forall_mem_cons.2
            ⟨hbefore, fun other hother => Int.lt_trans hbefore (hfirst other hother)⟩)
        rw [if_neg hsame, if_pos hbefore, hnone]
        by_cases hother : other = date
        · simp [hother, hnew]
        · have hrow : (change (.empty date)).date ≠ other := by
            rw [hnew]
            exact fun h => hother h.symm
          rw [if_neg hother, List.find?_cons_of_neg (by simpa using hrow)]
      · rw [if_neg hsame, if_neg hbefore, List.find?_cons, ih hrest]
        by_cases hother : other = date
        · simp [hother, hsame]
        · simp [hother, List.find?_cons]

theorem row_changeDay (store : Store) (h : Ascending store.days) (date other : Date) :
    ({ store with days := changeDay date change store.days } : Store).row other =
      if other = date then change (store.row date) else store.row other := by
  unfold row day?
  dsimp only
  rw [find?_changeDay hchange date other h]
  by_cases hother : other = date
  · rw [if_pos hother, if_pos hother, Option.getD_some]
  · rw [if_neg hother, if_neg hother]

end ChangeDay

/-- Of the rows since an instant that of an earlier day is none. -/
theorem day?_since (store : Store) (cutoff : Instant) (date : Date) :
    (store.since cutoff).day? date = if cutoff.date ≤ date then store.day? date else none := by
  unfold day? since
  dsimp only
  rw [List.find?_filter]
  split
  · rename_i hdate
    refine congrArg (fun found => List.find? found store.days) (funext fun row => ?_)
    by_cases hsame : row.date = date
    · simp [hsame, hdate]
    · simp [hsame]
  · rename_i hdate
    refine List.find?_eq_none.2 fun row _ hrow => ?_
    simp only [decide_eq_true_eq] at hrow
    exact hdate (hrow.2 ▸ hrow.1)

/-- The row of a day before that of the instant is all zeros. -/
theorem row_since (store : Store) (cutoff : Instant) (date : Date) :
    (store.since cutoff).row date = if cutoff.date ≤ date then store.row date else .empty date := by
  unfold row
  rw [day?_since]
  split <;> rfl

/-- Making a row changes no number. -/
theorem row_dayOrNew (store : Store) (h : Ascending store.days) (made date : Date) :
    (store.dayOrNew made).2.row date = store.row date := by
  have hid : ∀ row : DailyStats, (id row).date = row.date := fun _ => rfl
  refine (row_changeDay hid store h made date).trans ?_
  by_cases hdate : date = made
  · rw [if_pos hdate, hdate]
    rfl
  · rw [if_neg hdate]

/-! ## One operation -/

/-- The decisions of a day. -/
def decisionsOf (date : Date) (decisions : List Decision) : List Decision :=
  decisions.filter (·.timestamp.date = date)

/-- The alerts of a day. -/
def alertsOf (date : Date) (alerts : List AlertRecord) : List AlertRecord :=
  alerts.filter (·.createdAt.date = date)

/-- The store has the decisions and alerts of a day that were logged, and its row of the day has the
numbers of those decisions that were counted and of the alerts. -/
structure Keeps (date : Date) (logged counted : List Decision) (alerts : List AlertRecord)
    (store : Store) : Prop where
  ascending : Ascending store.days
  decisions : (decisionsOf date store.decisions).Perm (decisionsOf date logged)
  records : (alertsOf date store.alerts).Perm (alertsOf date alerts)
  row : (store.row date).Counts (decisionsOf date counted) (alertsOf date alerts)

theorem filter_cons_perm_filter_append {α : Type} {p : α → Bool} {stored logged : List α}
    (h : (stored.filter p).Perm (logged.filter p)) (a : α) :
    ((a :: stored).filter p).Perm ((logged ++ [a]).filter p) := by
  refine ((List.perm_append_singleton a stored).symm.filter p).trans ?_
  rw [List.filter_append, List.filter_append]
  exact h.append_right _

section Operations

variable {date : Date} {logged counted : List Decision} {alerts : List AlertRecord} {store : Store}

theorem keeps_empty (date : Date) : Keeps date [] [] [] .empty :=
  ⟨List.Pairwise.nil, .refl _, .refl _, DailyStats.counts_empty date⟩

theorem Keeps.logDecision (h : Keeps date logged counted alerts store) (decision : Decision) :
    Keeps date (logged ++ [decision]) counted alerts (store.logDecision decision) :=
  ⟨h.ascending, filter_cons_perm_filter_append h.decisions decision, h.records, h.row⟩

theorem Keeps.countDecision (h : Keeps date logged counted alerts store) (decision : Decision) :
    Keeps date logged (counted ++ [decision]) alerts (store.countDecision decision) := by
  have hchange := (DailyStats.addDecision_date · decision)
  refine ⟨ascending_changeDay hchange _ h.ascending, h.decisions, h.records, ?_⟩
  rw [Store.countDecision, row_changeDay hchange store h.ascending]
  unfold decisionsOf
  rw [List.filter_append]
  by_cases hdate : date = decision.timestamp.date
  · rw [if_pos hdate, List.filter_cons_of_pos (by simp [hdate]), ← hdate]
    exact h.row.addDecision decision
  · rw [if_neg hdate, List.filter_cons_of_neg (by simpa using Ne.symm hdate), List.filter_nil,
      List.append_nil]
    exact h.row

theorem Keeps.logAlert (h : Keeps date logged counted alerts store) (alert : AlertRecord) :
    Keeps date logged counted (alerts ++ [alert]) (store.logAlert alert) := by
  have hchange : ∀ row : DailyStats, (row.addAlert alert).date = row.date := fun _ => rfl
  refine ⟨ascending_changeDay hchange _ h.ascending, h.decisions,
    filter_cons_perm_filter_append h.records alert, ?_⟩
  have hrow : (store.logAlert alert).row date =
      if date = alert.createdAt.date then (store.row alert.createdAt.date).addAlert alert
      else store.row date := row_changeDay hchange store h.ascending _ _
  rw [hrow]
  unfold alertsOf
  rw [List.filter_append]
  by_cases hdate : date = alert.createdAt.date
  · rw [if_pos hdate, List.filter_cons_of_pos (by simp [hdate]), ← hdate]
    exact h.row.addAlert alert
  · rw [if_neg hdate, List.filter_cons_of_neg (by simpa using Ne.symm hdate), List.filter_nil,
      List.append_nil]
    exact h.row

theorem Keeps.dayOrNew (h : Keeps date logged counted alerts store) (other : Date) :
    Keeps date logged counted alerts (store.dayOrNew other).2 where
  ascending := ascending_changeDay (fun _ => rfl) _ h.ascending
  decisions := h.decisions
  records := h.records
  row := row_dayOrNew store h.ascending other date ▸ h.row

/-- A day is spared by what is dropped before its start. -/
theorem Keeps.since (h : Keeps date logged counted alerts store) {start cutoff : Instant}
    (hstart : date.start? = some start) (hcutoff : cutoff ≤ start) :
    Keeps date logged counted alerts (store.since cutoff) := by
  have hdate : cutoff.date ≤ date := by
    rw [← Instant.date_eq_of_start? hstart]
    exact Instant.date_le_date hcutoff
  have hdecisions : decisionsOf date (store.since cutoff).decisions =
      decisionsOf date store.decisions :=
    filter_filter_of_imp fun decision _ hday =>
      decide_eq_true (Int.le_trans hcutoff (Instant.start_le hstart (of_decide_eq_true hday)))
  have halerts : alertsOf date (store.since cutoff).alerts = alertsOf date store.alerts :=
    filter_filter_of_imp fun alert _ hday =>
      decide_eq_true (Int.le_trans hcutoff (Instant.start_le hstart (of_decide_eq_true hday)))
  have hrow : (store.since cutoff).row date = store.row date := by
    rw [row_since, if_pos hdate]
  refine ⟨h.ascending.filter _, ?_, ?_, hrow ▸ h.row⟩
  · rw [hdecisions]
    exact h.decisions
  · rw [halerts]
    exact h.records

end Operations

/-! ## Operations one after the other -/

end Store

namespace Operation

/-- The decision that is logged. -/
def logged? : Operation → Option Decision
  | .logDecision decision => some decision
  | _ => none

/-- The decision that is added to a row. -/
def counted? : Operation → Option Decision
  | .countDecision decision => some decision
  | _ => none

/-- The alert that is logged and added to a row. -/
def alert? : Operation → Option AlertRecord
  | .logAlert alert => some alert
  | _ => none

end Operation

namespace Store

/-- No cleanup among the operations reaches beyond an instant. -/
def Spare (start : Instant) (events : List Event) : Prop :=
  ∀ event ∈ events, ∀ retentionDays, event.operation = .cleanup retentionDays →
    event.now.subOrEarliest (daySpan retentionDays) ≤ start

theorem Keeps.perform {date : Date} {start : Instant} (hstart : date.start? = some start)
    {logged counted : List Decision} {alerts : List AlertRecord} {store : Store}
    (h : Keeps date logged counted alerts store) {event : Event} (hspare : Spare start [event]) :
    Keeps date (logged ++ event.operation.logged?.toList) (counted ++ event.operation.counted?.toList)
      (alerts ++ event.operation.alert?.toList) (Store.perform event store).2 := by
  obtain ⟨operation, now⟩ := event
  cases operation <;>
    simp only [Operation.logged?, Operation.counted?, Operation.alert?, Option.toList_some,
      Option.toList_none, List.append_nil]
  case logDecision decision => exact h.logDecision decision
  case countDecision decision => exact h.countDecision decision
  case logAlert alert => exact h.logAlert alert
  case dayOrNew other _ => exact h.dayOrNew other
  case cleanup retentionDays =>
    exact h.since hstart (hspare _ List.mem_cons_self retentionDays rfl)
  all_goals exact h

theorem keeps_behind {date : Date} {start : Instant} (hstart : date.start? = some start)
    {events : List Event} (hspare : Spare start events) :
    Keeps date (events.filterMap (·.operation.logged?)) (events.filterMap (·.operation.counted?))
      (events.filterMap (·.operation.alert?)) (behind events) := by
  induction events using List.reverseRecOn with
  | nil => exact keeps_empty date
  | append_singleton events event ih =>
    obtain ⟨hbefore, hlast⟩ := List.forall_mem_append.1 hspare
    rw [behind_append_singleton, List.filterMap_append, List.filterMap_append, List.filterMap_append,
      History.filterMap_singleton, History.filterMap_singleton, History.filterMap_singleton]
    exact (ih hbefore).perform hstart hlast

/-- Where the decisions that were counted are those that were logged, the row of a day has the
numbers of the stored decisions and alerts of the day, unless a cleanup reached into it. -/
theorem row_counts_stored {events : List Event}
    (hcounted : (events.filterMap (·.operation.logged?)).Perm
      (events.filterMap (·.operation.counted?)))
    {date : Date} {start : Instant} (hstart : date.start? = some start)
    (hspare : Spare start events) :
    ((behind events).row date).Counts (decisionsOf date (behind events).decisions)
      (alertsOf date (behind events).alerts) := by
  have h := keeps_behind hstart hspare
  refine h.row.perm ?_ h.records.symm
  exact ((hcounted.filter _).symm).trans h.decisions.symm

/-! ## A sample run -/

/-- A block of long ago and one of 2016-12-31, about which an alert is sent, and a cleanup on that
day. -/
def sampleDay : List Event :=
  [⟨.logDecision (sampleBlock .epoch), .epoch⟩, ⟨.countDecision (sampleBlock .epoch), .epoch⟩,
    ⟨.logAlert { AlertRecord.fresh (.ofNat 1) "GUARD-1" AlertRecord.tradeBlocked .critical "" ""
      .beforeLeap with sent := true }, .beforeLeap⟩,
    ⟨.logDecision (sampleBlock .beforeLeap), .beforeLeap⟩, ⟨.cleanup 1, .beforeLeap⟩,
    ⟨.countDecision (sampleBlock .beforeLeap), .beforeLeap⟩]

/-- The cleanup drops the old block and leaves the day alone. -/
theorem row_counts_sampleDay :
    (behind sampleDay).decisions = [sampleBlock .beforeLeap] ∧
      ((behind sampleDay).row (Instant.date .beforeLeap)).alertsSent = 1 ∧
      ((behind sampleDay).row (Instant.date .beforeLeap)).Counts
        (decisionsOf (Instant.date .beforeLeap) (behind sampleDay).decisions)
        (alertsOf (Instant.date .beforeLeap) (behind sampleDay).alerts) := by
  have hcounted : sampleDay.filterMap (·.operation.logged?) =
      sampleDay.filterMap (·.operation.counted?) := rfl
  have hstart : (Instant.date .beforeLeap).start? = Instant.ofParts? 1483142400 0 := by decide
  have hspare : Spare ((Instant.ofParts? 1483142400 0).getD .epoch) sampleDay := by
    intro event hevent retentionDays hcleanup
    simp only [sampleDay, List.mem_cons, List.not_mem_nil, or_false] at hevent
    rcases hevent with rfl | rfl | rfl | rfl | rfl | rfl
    case inr.inr.inr.inr.inl =>
      obtain rfl : 1 = retentionDays := Operation.cleanup.inj hcleanup
      decide
    all_goals exact nomatch hcleanup
  exact ⟨rfl, rfl, row_counts_stored (.of_eq hcounted) hstart hspare⟩

end Store

end TradeGate
