import Mathlib.Data.List.Nodup
import TradeGate.Proofs.Audit.Statistics

/-!
# Days with activity

A day has a row once a decision is counted on it or an alert is logged, and until a cleanup drops
it. It also has one once somebody asks for its row, so the recent days are those with activity and
those that were asked for (`Store.recentDays_lists`). The row of a day without activity has nothing
in it.
-/

namespace TradeGate

/-! ## What makes and drops a row -/

namespace Operation

/-- The day on which the operation is activity. -/
def active? : Operation → Option Date
  | .countDecision decision => some decision.timestamp.date
  | .logAlert alert => some alert.createdAt.date
  | _ => none

/-- The day whose row is asked for. -/
def asked? : Operation → Option Date
  | .dayOrNew date _ => some date
  | _ => none

end Operation

/-- A cleanup drops the row of a day. -/
def Event.Drops (event : Event) (date : Date) : Prop :=
  ∃ retentionDays, event.operation = .cleanup retentionDays ∧
    date < (event.now.subOrEarliest (Store.daySpan retentionDays)).date

theorem Event.drops_cleanup_iff {retentionDays : UInt32} {now : Instant} {date : Date} :
    Event.Drops ⟨.cleanup retentionDays, now⟩ date ↔
      ¬ (now.subOrEarliest (Store.daySpan retentionDays)).date ≤ date := by
  refine ⟨?_, fun hlt => ⟨retentionDays, rfl, Int.not_le.1 hlt⟩⟩
  rintro ⟨days, hcleanup, hlt⟩
  obtain rfl : retentionDays = days := Operation.cleanup.inj hcleanup
  exact Int.not_le.2 hlt

/-- The date is one of the last days, today among them. -/
def Date.IsAmongLast (date : Date) (days : Nat) (today : Date) : Prop :=
  date ≤ today ∧ today.dayNumber < date.dayNumber + days

namespace Store

/-- Some operation was on the day, and no cleanup has dropped the row of the day since. -/
def Since (on : Operation → Option Date) (events : List Event) (date : Date) : Prop :=
  ∃ before event after, events = before ++ event :: after ∧ on event.operation = some date ∧
    ∀ later ∈ after, ¬ later.Drops date

/-- A decision was counted or an alert was logged on the day, and no cleanup has dropped it since. -/
def IsActive (events : List Event) (date : Date) : Prop := Since Operation.active? events date

/-- The row of the day was asked for, and no cleanup has dropped it since. -/
def WasAskedFor (events : List Event) (date : Date) : Prop := Since Operation.asked? events date

/-- The rows are those of some dates, ascending. -/
structure Lists (rows : List DailyStats) (dates : Date → Prop) : Prop where
  ascending : Ascending rows
  dates_iff : ∀ date, (∃ row ∈ rows, row.date = date) ↔ dates date

section Since

variable {on : Operation → Option Date} {date : Date}

theorem not_since_nil : ¬ Since on [] date := by
  rintro ⟨before, event, after, hsplit, -⟩
  exact nomatch List.append_eq_nil_iff.1 hsplit.symm

/-- One more operation at the end is on the day, or it leaves the row alone. -/
theorem since_append_singleton {events : List Event} {event : Event} :
    Since on (events ++ [event]) date ↔
      on event.operation = some date ∨ (Since on events date ∧ ¬ event.Drops date) := by
  constructor
  · rintro ⟨before, first, after, hsplit, hon, hkept⟩
    rcases History.append_singleton_eq_append_cons_iff.1 hsplit with
      ⟨-, rfl, -⟩ | ⟨rest, rfl, rfl⟩
    · exact .inl hon
    · rw [List.forall_mem_append, List.forall_mem_singleton] at hkept
      exact .inr ⟨⟨before, first, rest, rfl, hon, hkept.1⟩, hkept.2⟩
  · rintro (hon | ⟨⟨before, first, after, rfl, hon, hkept⟩, hlast⟩)
    · exact ⟨events, event, [], rfl, hon, fun _ hlater => absurd hlater List.not_mem_nil⟩
    · refine ⟨before, first, after ++ [event], by simp, hon, ?_⟩
      rw [List.forall_mem_append, List.forall_mem_singleton]
      exact ⟨hkept, hlast⟩

end Since

/-! ## One operation -/

/-- What an operation can do to the rows. -/
inductive DayStep (store : Store) (event : Event) : List DailyStats → Prop
  | changed (date : Date) (change : DailyStats → DailyStats)
    (hdate : ∀ row, (change row).date = row.date)
    (hon : ∀ other, event.operation.active? = some other ∨ event.operation.asked? = some other ↔
      other = date)
    (hidle : event.operation.active? ≠ some date → change = id)
    (hdrops : ∀ other, ¬ event.Drops other) :
    DayStep store event (changeDay date change store.days)
  | dropped (cutoff : Instant) (hactive : event.operation.active? = none)
    (hasked : event.operation.asked? = none)
    (hdrops : ∀ date, event.Drops date ↔ ¬ cutoff.date ≤ date) :
    DayStep store event (store.since cutoff).days
  | kept (hactive : event.operation.active? = none) (hasked : event.operation.asked? = none)
    (hdrops : ∀ date, ¬ event.Drops date) : DayStep store event store.days

theorem dayStep_perform (store : Store) (event : Event) :
    DayStep store event (perform event store).2.days := by
  obtain ⟨operation, now⟩ := event
  cases operation with
  | countDecision decision =>
    refine .changed decision.timestamp.date (·.addDecision decision)
      (DailyStats.addDecision_date · decision) ?_ (fun hidle => absurd rfl hidle) ?_
    · simp [Operation.active?, Operation.asked?, eq_comm]
    · simp [Event.Drops]
  | logAlert alert =>
    refine .changed alert.createdAt.date (·.addAlert alert) (fun _ => rfl) ?_
      (fun hidle => absurd rfl hidle) ?_
    · simp [Operation.active?, Operation.asked?, eq_comm]
    · simp [Event.Drops]
  | dayOrNew date =>
    refine .changed date id (fun _ => rfl) ?_ (fun _ => rfl) ?_
    · simp [Operation.active?, Operation.asked?, eq_comm]
    · simp [Event.Drops]
  | cleanup retentionDays => exact .dropped _ rfl rfl fun _ => Event.drops_cleanup_iff
  | logDecision | findDecision | decisionsOn | recentBlocks | blockCounts | recentAlerts
  | countAlerts | recentDays => exact .kept rfl rfl (by simp [Event.Drops])

section DayStep

variable {store next : Store} {event : Event} {date : Date} (h : Ascending store.days)
  (hstep : DayStep store event next.days)

include h hstep

theorem DayStep.ascending : Ascending next.days := by
  generalize next.days = days at hstep
  cases hstep with
  | changed changed change hdate => exact ascending_changeDay hdate changed h
  | dropped => exact h.filter _
  | kept => exact h

/-- Behind an operation a day has a row if the operation is activity on the day or asks for its row,
or if it had one and the operation does not drop it. -/
theorem DayStep.isSome_day? : (next.day? date).isSome ↔
    (event.operation.active? = some date ∨ event.operation.asked? = some date) ∨
      ((store.day? date).isSome ∧ ¬ event.Drops date) := by
  unfold day?
  generalize next.days = days at hstep
  cases hstep with
  | changed changed change hdate hon _ hdrops =>
    rw [find?_changeDay hdate changed date h, hon]
    by_cases hsame : date = changed <;> simp [hsame, hdrops]
  | dropped cutoff hactive hasked hdrops =>
    have hfound := day?_since store cutoff date
    unfold day? at hfound
    rw [hfound, hactive, hasked, hdrops, not_not]
    by_cases hkept : cutoff.date ≤ date <;> simp [hkept]
  | kept hactive hasked hdrops => simp [hactive, hasked, hdrops]

/-- The row of a day on which an operation is no activity stays as it was, or it is dropped. -/
theorem DayStep.row_eq (hactive : event.operation.active? ≠ some date) :
    (event.Drops date ∧ next.row date = .empty date) ∨
      (¬ event.Drops date ∧ next.row date = store.row date) := by
  unfold Store.row day?
  generalize next.days = days at hstep
  cases hstep with
  | changed changed change hdate _ hidle hdrops =>
    right
    refine ⟨hdrops date, (row_changeDay hdate store h changed date).trans ?_⟩
    by_cases hsame : date = changed
    · rw [hidle (hsame ▸ hactive), if_pos hsame, hsame]
      rfl
    · rw [if_neg hsame]
      rfl
  | dropped cutoff _ _ hdrops =>
    have hrow := row_since store cutoff date
    rw [hdrops]
    by_cases hkept : cutoff.date ≤ date
    · rw [if_pos hkept] at hrow
      exact .inr ⟨not_not.2 hkept, hrow⟩
    · rw [if_neg hkept] at hrow
      exact .inl ⟨hkept, hrow⟩
  | kept _ _ hdrops => exact .inr ⟨hdrops date, rfl⟩

end DayStep

/-! ## Operations one after the other -/

theorem ascending_behind (events : List Event) : Ascending (behind events).days :=
  have hempty : Ascending empty.days := List.Pairwise.nil
  History.stateBehind_invariant (P := fun store => Ascending store.days) perform hempty
    (fun event store h => (dayStep_perform store event).ascending h) events

/-- A day has a row if it has been active or asked for since it was dropped. -/
theorem isSome_day?_behind (events : List Event) (date : Date) :
    ((behind events).day? date).isSome ↔ IsActive events date ∨ WasAskedFor events date := by
  unfold IsActive WasAskedFor
  induction events using List.reverseRecOn with
  | nil => simp [not_since_nil, behind, History.stateBehind, empty, day?]
  | append_singleton events event ih =>
    rw [behind_append_singleton, (dayStep_perform _ event).isSome_day? (ascending_behind events),
      ih, since_append_singleton, since_append_singleton]
    tauto

/-- The row of a day without activity has nothing in it. -/
theorem row_behind {events : List Event} {date : Date} (hidle : ¬ IsActive events date) :
    (behind events).row date = .empty date := by
  unfold IsActive at hidle
  induction events using List.reverseRecOn with
  | nil => rfl
  | append_singleton events event ih =>
    rw [since_append_singleton, not_or] at hidle
    rw [behind_append_singleton]
    rcases (dayStep_perform _ event).row_eq (ascending_behind events) hidle.1 with
      ⟨-, hrow⟩ | ⟨hkept, hrow⟩
    · exact hrow
    · rw [hrow]
      exact ih fun hactive => hidle.2 ⟨hactive, hkept⟩

/-! ## The recent days -/

/-- Where days ascend a row is that of its day. -/
theorem row_of_mem {store : Store} (h : Ascending store.days) {row : DailyStats}
    (hrow : row ∈ store.days) : store.row row.date = row := by
  have hkeys : (store.days.map DailyStats.date).Nodup := by
    refine List.pairwise_map.2 (h.imp ?_)
    intro earlier later hbefore hsame
    exact Int.ne_of_lt hbefore (congrArg Date.dayNumber hsame)
  obtain ⟨found, hfound⟩ : ∃ found, store.days.find? (·.date = row.date) = some found :=
    Option.isSome_iff_exists.1 (List.find?_isSome.2 ⟨row, hrow, decide_eq_true rfl⟩)
  have hdate : found.date = row.date := by simpa using List.find?_some hfound
  unfold Store.row day?
  rw [hfound, Option.getD_some]
  exact List.inj_on_of_nodup_map hkeys (List.mem_of_find?_eq_some hfound) hrow hdate

theorem exists_mem_days_iff {store : Store} {date : Date} :
    (∃ row ∈ store.days, row.date = date) ↔ (store.day? date).isSome := by
  unfold day?
  rw [List.find?_isSome]
  simp only [decide_eq_true_eq]

theorem mem_recentDays {store : Store} {now : Instant} {count : UInt32} (hcount : 1 ≤ count)
    {row : DailyStats} : row ∈ store.recentDays now count ↔
      row ∈ store.days ∧ row.date.IsAmongLast count.toNat now.date := by
  have hpositive : 1 ≤ count.toNat := UInt32.le_iff_toNat_le.1 hcount
  have hfirst : now.date.addDays (-((count.toNat - 1 : Nat) : Int)) ≤ row.date ↔
      now.date.dayNumber < row.date.dayNumber + count.toNat := by
    show now.date.dayNumber + _ ≤ _ ↔ _
    omega
  unfold recentDays Date.IsAmongLast
  simp only [List.mem_filter, Bool.and_eq_true, decide_eq_true_eq, hfirst]
  rw [And.comm (a := _ < _)]

/-- The recent days are those with activity and those that were asked for. A row of a day without
activity has nothing in it, and where there is one among them these are not the active days. -/
theorem recentDays_lists (events : List Event) (now : Instant) {count : UInt32}
    (hcount : 1 ≤ count) :
    let rows := (behind events).recentDays now count
    let isRecent (date : Date) := date.IsAmongLast count.toNat now.date
    Lists rows (fun date => isRecent date ∧ (IsActive events date ∨ WasAskedFor events date)) ∧
      (∀ row ∈ rows, ¬ IsActive events row.date → row = .empty row.date) ∧
      (Lists rows (fun date => isRecent date ∧ IsActive events date) ↔
        ∀ date, isRecent date → WasAskedFor events date → IsActive events date) := by
  intro rows isRecent
  have hascending : Ascending rows := (ascending_behind events).filter _
  have hdates (date : Date) : (∃ row ∈ rows, row.date = date) ↔
      isRecent date ∧ (IsActive events date ∨ WasAskedFor events date) := by
    rw [← isSome_day?_behind, ← exists_mem_days_iff]
    constructor
    · rintro ⟨row, hrow, rfl⟩
      obtain ⟨hmem, hrecent⟩ := (mem_recentDays hcount).1 hrow
      exact ⟨hrecent, row, hmem, rfl⟩
    · rintro ⟨hrecent, row, hmem, rfl⟩
      exact ⟨row, (mem_recentDays hcount).2 ⟨hmem, hrecent⟩, rfl⟩
  refine ⟨⟨hascending, hdates⟩, fun row hrow hidle => ?_, fun h date hrecent hasked => ?_,
    fun h => ⟨hascending, fun date => ?_⟩⟩
  · obtain ⟨hmem, -⟩ := (mem_recentDays hcount).1 hrow
    exact (row_of_mem (ascending_behind events) hmem).symm.trans (row_behind hidle)
  · exact ((h.dates_iff date).1 ((hdates date).2 ⟨hrecent, .inr hasked⟩)).2
  · rw [hdates]
    exact and_congr_right fun hrecent => or_iff_left_of_imp (h date hrecent)

/-! ## Sample runs -/

/-- A decision is counted long ago and an alert is logged on 2016-12-31, a cleanup drops the old
day, and the row of the next day is asked for. -/
def sampleWeek : List Event :=
  [⟨.countDecision (sampleBlock .epoch), .epoch⟩,
    ⟨.logAlert (AlertRecord.fresh (.ofNat 1) "GUARD-1" AlertRecord.tradeBlocked .critical "" ""
      .beforeLeap), .beforeLeap⟩,
    ⟨.cleanup 1, .beforeLeap⟩,
    ⟨.dayOrNew (Instant.date .afterLeap) (Instant.earliest_date_le _), .beforeLeap⟩]

/-- Two days are listed, and the later one has nothing in it. -/
theorem recentDays_lists_sampleWeek :
    let rows := (behind sampleWeek).recentDays .afterLeap 2
    (1 : UInt32) ≤ 2 ∧ rows.map DailyStats.date = [Instant.date .beforeLeap, Instant.date .afterLeap] ∧
      rows.getLast? = some (.empty (Instant.date .afterLeap)) ∧
      Lists rows (fun date => date.IsAmongLast 2 (Instant.date .afterLeap) ∧
        (IsActive sampleWeek date ∨ WasAskedFor sampleWeek date)) := by
  intro rows
  have hcount : (1 : UInt32) ≤ 2 := by decide
  exact ⟨hcount, rfl, rfl, (recentDays_lists sampleWeek .afterLeap hcount).1⟩

/-- To ask for the row of a day puts it among the recent days, though nothing was done on it. -/
theorem not_lists_askedFor :
    let events : List Event :=
      [⟨.dayOrNew (Instant.date .beforeLeap) (Instant.earliest_date_le _), .beforeLeap⟩]
    (behind events).recentDays .beforeLeap 1 = [.empty (Instant.date .beforeLeap)] ∧
      ¬ IsActive events (Instant.date .beforeLeap) ∧
      ¬ Lists ((behind events).recentDays .beforeLeap 1) fun date =>
        date.IsAmongLast 1 (Instant.date .beforeLeap) ∧ IsActive events date := by
  intro events
  have hrows : (behind events).recentDays .beforeLeap 1 = [.empty (Instant.date .beforeLeap)] := rfl
  have hidle : ¬ IsActive events (Instant.date .beforeLeap) := by
    intro hactive
    have hlast : Since Operation.active? ([] ++ events) (Instant.date .beforeLeap) := hactive
    rcases since_append_singleton.1 hlast with hon | ⟨hbefore, -⟩
    · exact nomatch hon
    · exact not_since_nil hbefore
  refine ⟨hrows, hidle, fun h => hidle ?_⟩
  exact ((h.dates_iff _).1 (hrows ▸ ⟨_, List.mem_singleton_self _, rfl⟩)).2

end Store

end TradeGate
