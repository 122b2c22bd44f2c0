import TradeGate.Proofs.Audit.Operation
import TradeGate.Proofs.Time.Cutoff

/-!
# What a cleanup leaves alone

`Store.since cutoff` is a store without what is older than an instant, and a cleanup is that for the
instant its retention reaches back to. Operations on a store and on what it holds since an instant
leave stores behind that hold the same since then (`perform_since`), and a query that looks back no
farther is answered alike (`answer_since`). So nothing within the retention shows whether a cleanup
was made, unless it was made inside a leap second.
-/

namespace TradeGate

/-- The operation is a query that looks back no farther than a number of days. -/
def Operation.Within (retentionDays : UInt32) : Operation → Prop
  | .recentBlocks within _ _ | .blockCounts within | .recentAlerts within _ =>
    within.toNat ≤ 24 * retentionDays.toNat
  | .countAlerts within => within.toNat ≤ 1440 * retentionDays.toNat
  | .recentDays count => count.toNat ≤ retentionDays.toNat + 1
  | _ => False

theorem DailyStats.addDecision_date (stats : DailyStats) (decision : Decision) :
    (stats.addDecision decision).date = stats.date := by
  unfold addDecision countVerdict
  cases decision.verdict <;> rfl

namespace Store

/-- What the store holds since an instant, and the rows since its date. -/
def since (cutoff : Instant) (store : Store) : Store where
  decisions := store.decisions.filter fun decision => cutoff ≤ decision.timestamp
  alerts := store.alerts.filter fun alert => cutoff ≤ alert.createdAt
  days := store.days.filter fun row => cutoff.date ≤ row.date

/-! ## Operations on what is held since an instant -/

/-- Of the rows since a date a change of a later day changes that day's, and one of an earlier day
changes none. -/
theorem filter_changeDay {change : DailyStats → DailyStats}
    (hchange : ∀ row, (change row).date = row.date) (first date : Date) (rows : List DailyStats) :
    (changeDay date change rows).filter (first ≤ ·.date) =
      if first ≤ date then changeDay date change (rows.filter (first ≤ ·.date))
      else rows.filter (first ≤ ·.date) := by
  have hnew : (change (.empty date)).date = date := hchange _
  induction rows with
  | nil => by_cases h : first ≤ date <;> simp [changeDay, hnew, h]
  | cons row rest ih =>
    by_cases hsame : row.date = date
    · by_cases h : first ≤ date <;> simp [changeDay, hsame, hchange, h]
    · by_cases hbefore : date < row.date
      · by_cases h : first ≤ date
        · have hrow : first ≤ row.date := Int.le_trans h (Int.le_of_lt hbefore)
          simp [changeDay, hsame, hbefore, hnew, h, hrow]
        · simp [changeDay, hsame, hbefore, hnew, h]
      · rw [changeDay, if_neg hsame, if_neg hbefore, List.filter_cons, List.filter_cons, ih]
        by_cases hrow : first ≤ row.date
        · have hlast : first ≤ date := Int.le_trans hrow (Int.not_lt.1 hbefore)
          simp [changeDay, hsame, hbefore, hrow, hlast]
        · simp [hrow]

theorem since_since (cutoff : Instant) (store : Store) :
    (store.since cutoff).since cutoff = store.since cutoff := by
  simp [since, List.filter_filter]

theorem since_comm (cutoff other : Instant) (store : Store) :
    (store.since cutoff).since other = (store.since other).since cutoff := by
  simp only [since, List.filter_filter, Bool.and_comm]

theorem cleanup_snd (store : Store) (now : Instant) (retentionDays : UInt32) :
    (store.cleanup now retentionDays).2 = store.since (now.subOrEarliest (daySpan retentionDays)) :=
  rfl

/-- What a store holds since an instant behind an operation depends on no more than what it held
since then. -/
theorem perform_since (cutoff : Instant) (event : Event) (store : Store) :
    (perform event (store.since cutoff)).2.since cutoff = (perform event store).2.since cutoff := by
  have hdays (change : DailyStats → DailyStats) (hchange : ∀ row, (change row).date = row.date)
      (date : Date) : (changeDay date change (store.since cutoff).days).filter
        (cutoff.date ≤ ·.date) = (changeDay date change store.days).filter (cutoff.date ≤ ·.date) := by
    rw [filter_changeDay hchange, filter_changeDay hchange]
    simp [since, List.filter_filter]
  obtain ⟨operation, now⟩ := event
  cases operation with
  | logDecision decision => simp [perform, logDecision, since, List.filter_cons, List.filter_filter]
  | countDecision decision =>
    have := hdays (·.addDecision decision) (DailyStats.addDecision_date · decision)
      decision.timestamp.date
    simpa [perform, countDecision, since, List.filter_filter] using this
  | logAlert alert =>
    have := hdays (·.addAlert alert) (fun _ => rfl) alert.createdAt.date
    simpa [perform, logAlert, since, List.filter_cons, List.filter_filter] using this
  | dayOrNew date _ =>
    have := hdays id (fun _ => rfl) date
    simpa [perform, dayOrNew, since, List.filter_filter] using this
  | cleanup retentionDays =>
    show ((store.since cutoff).cleanup now retentionDays).2.since cutoff =
      (store.cleanup now retentionDays).2.since cutoff
    rw [cleanup_snd, cleanup_snd, since_comm _ cutoff, since_since, since_comm]
  | findDecision | decisionsOn | recentBlocks | blockCounts | recentAlerts | countAlerts
  | recentDays => exact since_since cutoff store

/-! ## Queries within the retention -/

/-- What a narrower filter passes is not lost in a wider one. -/
theorem filter_filter_of_imp {α : Type} {items : List α} {wide narrow : α → Bool}
    (h : ∀ item ∈ items, narrow item = true → wide item = true) :
    (items.filter wide).filter narrow = items.filter narrow := by
  rw [List.filter_filter]
  apply List.filter_congr
  intro item hitem
  cases hnarrow : narrow item with
  | true => simp [h item hitem hnarrow]
  | false => rfl

section Queries

variable {cutoff now : Instant} {within : UInt32} (store : Store)

theorem recentBlocks_since (h : cutoff ≤ now.subOrEarliest (hours within)) (limit : Nat)
    (category : Option Category) :
    (store.since cutoff).recentBlocks now within limit category =
      store.recentBlocks now within limit category := by
  unfold recentBlocks since
  dsimp only
  rw [filter_filter_of_imp]
  intro decision _ hdecision
  simp only [Bool.and_eq_true, decide_eq_true_eq] at hdecision ⊢
  exact Int.le_trans h hdecision.1.2

theorem blockCounts_since (h : cutoff ≤ now.subOrEarliest (hours within)) :
    (store.since cutoff).blockCounts now within = store.blockCounts now within := by
  have hsame : (store.since cutoff).decisions.filter
        (fun decision => now.subOrEarliest (hours within) ≤ decision.timestamp) =
      store.decisions.filter fun decision => now.subOrEarliest (hours within) ≤ decision.timestamp := by
    apply filter_filter_of_imp
    intro decision _ hdecision
    simp only [decide_eq_true_eq] at hdecision ⊢
    exact Int.le_trans h hdecision
  unfold blockCounts
  simp only [hsame]

theorem recentAlerts_since (h : cutoff ≤ now.subOrEarliest (hours within)) (limit : Nat) :
    (store.since cutoff).recentAlerts now within limit = store.recentAlerts now within limit := by
  unfold recentAlerts since
  dsimp only
  rw [filter_filter_of_imp]
  intro alert _ halert
  simp only [decide_eq_true_eq] at halert ⊢
  exact Int.le_trans h halert

theorem countAlerts_since (h : cutoff ≤ now.subOrEarliest (minutes within)) :
    (store.since cutoff).countAlerts now within = store.countAlerts now within := by
  unfold countAlerts since
  dsimp only
  rw [List.countP_eq_length_filter, List.countP_eq_length_filter, filter_filter_of_imp]
  intro alert _ halert
  simp only [Bool.and_eq_true, decide_eq_true_eq] at halert ⊢
  exact Int.le_trans h halert.2

theorem recentDays_since {count : UInt32}
    (h : ∀ row ∈ store.days, now.date.addDays (-((count.toNat - 1 : Nat) : Int)) ≤ row.date →
      cutoff.date ≤ row.date) :
    (store.since cutoff).recentDays now count = store.recentDays now count := by
  unfold recentDays since
  dsimp only
  rw [filter_filter_of_imp]
  intro row hmem hrow
  simp only [Bool.and_eq_true, decide_eq_true_eq] at hrow ⊢
  exact h row hmem hrow.1

end Queries

/-! ## How far back a cleanup reaches -/

section Cutoff

variable {now later : Instant} (hleap : now.isLeap = false) (hlater : now ≤ later)
  {retentionDays within count : UInt32}

include hleap hlater

theorem subOrEarliest_daySpan_le_hours (h : within.toNat ≤ 24 * retentionDays.toNat) :
    now.subOrEarliest (daySpan retentionDays) ≤ later.subOrEarliest (hours within) := by
  have := Instant.subOrEarliest_le_subOrEarliest hleap hlater
    (show within.toNat * 3600 ≤ retentionDays.toNat * 86400 by omega)
  rwa [Int.natCast_mul, Int.natCast_mul] at this

theorem subOrEarliest_daySpan_le_minutes (h : within.toNat ≤ 1440 * retentionDays.toNat) :
    now.subOrEarliest (daySpan retentionDays) ≤ later.subOrEarliest (minutes within) := by
  have := Instant.subOrEarliest_le_subOrEarliest hleap hlater
    (show within.toNat * 60 ≤ retentionDays.toNat * 86400 by omega)
  rwa [Int.natCast_mul, Int.natCast_mul] at this

/-- No date within the retention is before the one a cleanup reaches back to. -/
theorem date_subOrEarliest_daySpan_le (h : count.toNat ≤ retentionDays.toNat + 1) {date : Date}
    (hknown : Date.earliest ≤ date)
    (hdate : later.date.addDays (-((count.toNat - 1 : Nat) : Int)) ≤ date) :
    (now.subOrEarliest (daySpan retentionDays)).date ≤ date := by
  have htoday := Instant.date_le_date hlater
  have hdate : later.date.dayNumber + -((count.toNat - 1 : Nat) : Int) ≤ date.dayNumber := hdate
  by_cases hzero : retentionDays.toNat = 0
  · have hspan : daySpan retentionDays = 0 := by simp [daySpan, hzero]
    rw [hspan, Instant.subOrEarliest, Instant.sub?_zero]
    show now.date.dayNumber ≤ date.dayNumber
    omega
  · have hspan : daySpan retentionDays =
        ((retentionDays.toNat * 86400 : Nat) : Int) * nanosPerSecond := by
      rw [Int.natCast_mul]
      rfl
    have hpos : 0 < retentionDays.toNat * 86400 := by omega
    unfold Instant.subOrEarliest
    rw [hspan]
    rcases Instant.sub?_seconds now hpos with ⟨cutoff, hcutoff, hcutoffLeap, hplace⟩ | ⟨hnone, -⟩
    · have hnow := Instant.nanos_lt_of_not_isLeap hleap
      have hcutoffNanos := Instant.nanos_lt_of_not_isLeap hcutoffLeap
      have := now.nanos_nonneg
      have := cutoff.nanos_nonneg
      rw [hcutoff]
      show cutoff.date.dayNumber ≤ date.dayNumber
      simp only [Instant.unixNanos, Instant.date, nanosPerSecond, secondsPerDay] at *
      omega
    · rw [hnone]
      exact Int.le_trans (Int.le_of_eq (by decide)) hknown

end Cutoff

/-! ## Dates of rows -/

/-- No row is of a date before the first one there is. -/
def KnowsDays (store : Store) : Prop := ∀ row ∈ store.days, Date.earliest ≤ row.date

theorem date_of_mem_changeDay {change : DailyStats → DailyStats}
    (hchange : ∀ row, (change row).date = row.date) {date : Date} {rows : List DailyStats}
    {row : DailyStats} (h : row ∈ changeDay date change rows) :
    row.date = date ∨ ∃ other ∈ rows, other.date = row.date := by
  induction rows with
  | nil =>
    obtain rfl := List.mem_singleton.1 h
    exact .inl (hchange _)
  | cons first rest ih =>
    unfold changeDay at h
    split at h
    · rename_i hsame
      rcases List.mem_cons.1 h with rfl | hmem
      · exact .inl ((hchange _).trans hsame)
      · exact .inr ⟨row, List.mem_cons_of_mem _ hmem, rfl⟩
    · split at h
      · rcases List.mem_cons.1 h with rfl | hmem
        · exact .inl (hchange _)
        · exact .inr ⟨row, hmem, rfl⟩
      · rcases List.mem_cons.1 h with rfl | hmem
        · exact .inr ⟨row, List.mem_cons_self, rfl⟩
        · rcases ih hmem with hdate | ⟨other, hother, hdate⟩
          · exact .inl hdate
          · exact .inr ⟨other, List.mem_cons_of_mem _ hother, hdate⟩

theorem KnowsDays.changeDay {store : Store} (h : store.KnowsDays)
    (change : DailyStats → DailyStats) (hchange : ∀ row, (change row).date = row.date) {date : Date}
    (hdate : Date.earliest ≤ date) :
    ∀ row ∈ Store.changeDay date change store.days, Date.earliest ≤ row.date := by
  intro row hrow
  rcases date_of_mem_changeDay hchange hrow with hsame | ⟨other, hother, hsame⟩
  · rwa [hsame]
  · rw [← hsame]
    exact h other hother

theorem KnowsDays.perform {store : Store} (h : store.KnowsDays) (event : Event) :
    (Store.perform event store).2.KnowsDays := by
  obtain ⟨operation, now⟩ := event
  cases operation with
  | countDecision decision =>
    exact h.changeDay _ (DailyStats.addDecision_date · decision) (Instant.earliest_date_le _)
  | logAlert alert =>
    exact h.changeDay (·.addAlert alert) (fun _ => rfl) (Instant.earliest_date_le _)
  | dayOrNew date known => exact h.changeDay id (fun _ => rfl) known
  | cleanup => exact fun row hrow => h row (List.mem_filter.1 hrow).1
  | logDecision | findDecision | decisionsOn | recentBlocks | blockCounts | recentAlerts
  | countAlerts | recentDays => exact h

theorem knowsDays_behind (events : List Event) : (behind events).KnowsDays :=
  History.stateBehind_invariant Store.perform (by simp [KnowsDays, empty])
    (fun event _ h => h.perform event) events

/-- A query within the retention is answered from what is held since the instant that a cleanup
reaches back to. -/
theorem answer_since {retentionDays : UInt32} {now : Instant} {event : Event}
    (hwithin : event.operation.Within retentionDays) (hleap : now.isLeap = false)
    (hlater : now ≤ event.now) {store : Store} (hknown : store.KnowsDays) :
    (perform event (store.since (now.subOrEarliest (daySpan retentionDays)))).1 =
      (perform event store).1 := by
  obtain ⟨operation, later⟩ := event
  cases operation with
  | recentBlocks within limit category =>
    exact congrArg Answer.decisions (recentBlocks_since store
      (subOrEarliest_daySpan_le_hours hleap hlater hwithin) limit category)
  | blockCounts within =>
    exact congrArg Answer.counts (blockCounts_since store
      (subOrEarliest_daySpan_le_hours hleap hlater hwithin))
  | recentAlerts within limit =>
    exact congrArg Answer.alerts (recentAlerts_since store
      (subOrEarliest_daySpan_le_hours hleap hlater hwithin) limit)
  | countAlerts within =>
    exact congrArg Answer.number (countAlerts_since store
      (subOrEarliest_daySpan_le_minutes hleap hlater hwithin))
  | recentDays count =>
    exact congrArg Answer.days (recentDays_since store fun row hrow =>
      date_subOrEarliest_daySpan_le hleap hlater hwithin (hknown row hrow))
  | logDecision | countDecision | logAlert | findDecision | decisionsOn | dayOrNew | cleanup =>
    exact hwithin.elim

/-! ## Runs with a cleanup and without -/

/-- Behind a cleanup and behind none stores hold the same since the instant it reaches back to,
whatever is done later. -/
theorem since_behind_cleanup (before after : List Event) (now : Instant) (retentionDays : UInt32) :
    (behind (before ++ ⟨.cleanup retentionDays, now⟩ :: after)).since
        (now.subOrEarliest (daySpan retentionDays)) =
      (behind (before ++ after)).since (now.subOrEarliest (daySpan retentionDays)) := by
  induction after using List.reverseRecOn with
  | nil =>
    rw [behind_append_singleton, List.append_nil]
    exact since_since _ _
  | append_singleton after event ih =>
    rw [← List.cons_append, ← List.append_assoc, ← List.append_assoc, behind_append_singleton,
      behind_append_singleton, ← perform_since, ih, perform_since]

/-- Whether a cleanup was made shows in no query within its retention at the same time or later,
whatever was done in between. -/
theorem answer_eq_of_cleanup (before after : List Event) (event : Event) (retentionDays : UInt32)
    (now : Instant) (hleap : now.isLeap = false) (hlater : now ≤ event.now)
    (hwithin : event.operation.Within retentionDays) :
    (perform event (behind (before ++ ⟨.cleanup retentionDays, now⟩ :: after))).1 =
      (perform event (behind (before ++ after))).1 := by
  rw [← answer_since hwithin hleap hlater (knowsDays_behind _), since_behind_cleanup,
    answer_since hwithin hleap hlater (knowsDays_behind _)]

/-! ## Sample runs -/

/-- A block at an instant. -/
def sampleBlock (now : Instant) : Decision :=
  .internalError "GUARD-1" none "error" "out of order" (.ofNat 0) now

/-- A block of long ago and one of now, a cleanup that drops the former, and a query that looks as
far back as the cleanup. -/
theorem answer_eq_of_sampleCleanup :
    let before : List Event := [⟨.logDecision (sampleBlock .epoch), .epoch⟩,
      ⟨.logDecision (sampleBlock .beforeLeap), .beforeLeap⟩]
    let after : List Event := [⟨.countDecision (sampleBlock .beforeLeap), .beforeLeap⟩]
    let query : Event := ⟨.recentBlocks 24 10 none, .beforeLeap⟩
    (behind (before ++ ⟨.cleanup 1, .beforeLeap⟩ :: after)).decisions.length = 1 ∧
      (perform query (behind (before ++ ⟨.cleanup 1, .beforeLeap⟩ :: after))).1 =
        .decisions [sampleBlock .beforeLeap] ∧
      (perform query (behind (before ++ ⟨.cleanup 1, .beforeLeap⟩ :: after))).1 =
        (perform query (behind (before ++ after))).1 := by
  intro before after query
  have hwithin : query.operation.Within 1 := by
    show (24 : UInt32).toNat ≤ 24 * (1 : UInt32).toNat
    decide
  exact ⟨rfl, rfl, answer_eq_of_cleanup before after query 1 .beforeLeap (by decide) (by decide)
    hwithin⟩

/-- The block of 2016-12-31T00:00:00.2Z, a day before the end of a leap second. -/
def blockBeforeLeap : Decision := sampleBlock ((Instant.ofParts? 1483142400 200000000).getD .epoch)

/-- A cleanup inside the leap second reaches back to half a second after midnight, and so drops a
block that a query at the later midnight looks back to. -/
theorem answer_ne_of_leapCleanup :
    let query : Event := ⟨.recentBlocks 24 10 none, .afterLeap⟩
    let before : List Event := [⟨.logDecision blockBeforeLeap, blockBeforeLeap.timestamp⟩]
    Instant.withinLeap ≤ query.now ∧ query.operation.Within 1 ∧
      (perform query (behind (before ++ [⟨.cleanup 1, .withinLeap⟩]))).1 ≠
        (perform query (behind before)).1 := by
  intro query before
  have hwith : (perform query (behind (before ++ [⟨.cleanup 1, .withinLeap⟩]))).1 =
      .decisions [] := rfl
  have hwithout : (perform query (behind before)).1 = .decisions [blockBeforeLeap] := rfl
  refine ⟨by decide, ?_, ?_⟩
  · show (24 : UInt32).toNat ≤ 24 * (1 : UInt32).toNat
    decide
  · rw [hwith, hwithout]
    simp

end Store

end TradeGate
