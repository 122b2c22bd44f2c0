import TradeGate.Proofs.Audit.Statistics
import TradeGate.Proofs.Audit.Times
import TradeGate.Proofs.Decision.Tags
import TradeGate.Proofs.Number.Nearest

/-!
# A row as an aggregate

A row is a fold of decisions and alerts (`DailyStats.recorded`). Its numbers are those of what was
folded (`counts_recorded`), so they agree with each other (`DailyStats.Balanced`), and its times are
the running mean and the greatest of the evaluation times (`times_recorded`). `aggregates_recorded`
puts this together: nothing depends on the order but the rounding of the mean.
-/

namespace TradeGate

-- Powers are those of the core library.
attribute [local instance (high)] instPowNat

namespace DailyStats

/-- What is folded into a row. -/
inductive Entry where
  | decision (decision : Decision)
  | alert (alert : AlertRecord)

/-- One more entry. -/
def addEntry (row : DailyStats) : Entry → DailyStats
  | .decision decision => row.addDecision decision
  | .alert alert => row.addAlert alert

/-- The row of a date after entries. -/
def recorded (date : Date) (entries : List Entry) : DailyStats :=
  entries.foldl addEntry (.empty date)

namespace Entry

def decision? : Entry → Option Decision
  | .decision made => some made
  | .alert _ => none

def alert? : Entry → Option AlertRecord
  | .decision _ => none
  | .alert raised => some raised

end Entry

/-- The decisions among entries. -/
def decisions (entries : List Entry) : List Decision := entries.filterMap Entry.decision?

/-- The alerts among entries. -/
def alerts (entries : List Entry) : List AlertRecord := entries.filterMap Entry.alert?

/-- The numbers of a row agree with each other. -/
structure Balanced (row : DailyStats) : Prop where
  total : row.totalEvaluations = row.executeCount + row.blockCount
  /-- There is a number for every category, and no other. -/
  categories : row.blocksByCategory.map Prod.fst = Category.all
  /-- There is a number for every severity, and no other. -/
  severities : row.blocksBySeverity.map Prod.fst = Severity.all
  sum_byCategory : (row.blocksByCategory.map Prod.snd).sum = row.blockCount
  sum_bySeverity : (row.blocksBySeverity.map Prod.snd).sum = row.blockCount
  /-- Counts have 64 bits. -/
  blockRate_mem : row.totalEvaluations < 2 ^ (64 : Nat) →
    Binary64.le (.ofNat 0) row.blockRate = true ∧ Binary64.le row.blockRate (.ofNat 100) = true

/-- The evaluation times as the row has them. -/
def times (row : DailyStats) : Times Binary64 :=
  ⟨row.totalEvaluations, row.avgEvaluationTimeMs, row.maxEvaluationTimeMs⟩

/-- The row is the aggregate of entries. -/
structure Aggregates (row : DailyStats) (entries : List Entry) : Prop where
  counts : row.Counts (decisions entries) (alerts entries)
  balanced : row.Balanced
  /-- The mean and the greatest time are the running ones, each step rounded. -/
  times_eq : row.times = Times.of .binary64 ((decisions entries).map Decision.evaluationTimeMs)
  /-- The same steps without rounding give the mean and the greatest of whatever times. -/
  exact_times : ∀ time : Decision → ℚ, (∀ decision ∈ decisions entries, 0 ≤ time decision) →
    (Times.of .rational ((decisions entries).map time)).Exact ((decisions entries).map time)
  /-- The greatest time is not rounded. -/
  le_greatest : ∀ decision ∈ decisions entries,
    Binary64.le decision.evaluationTimeMs row.maxEvaluationTimeMs = true
  greatest_le : decisions entries ≠ [] → ∃ decision ∈ decisions entries,
    Binary64.le row.maxEvaluationTimeMs decision.evaluationTimeMs = true

/-! ## What was folded -/

theorem recorded_append_singleton (date : Date) (entries : List Entry) (entry : Entry) :
    recorded date (entries ++ [entry]) = (recorded date entries).addEntry entry := by
  unfold recorded
  rw [List.foldl_append, List.foldl_cons, List.foldl_nil]

theorem decisions_append_singleton (entries : List Entry) (entry : Entry) :
    decisions (entries ++ [entry]) = decisions entries ++ entry.decision?.toList := by
  unfold decisions
  rw [List.filterMap_append, History.filterMap_singleton]

theorem alerts_append_singleton (entries : List Entry) (entry : Entry) :
    alerts (entries ++ [entry]) = alerts entries ++ entry.alert?.toList := by
  unfold alerts
  rw [List.filterMap_append, History.filterMap_singleton]

theorem recorded_date (date : Date) (entries : List Entry) : (recorded date entries).date = date := by
  induction entries using List.reverseRecOn with
  | nil => rfl
  | append_singleton entries entry ih =>
    rw [recorded_append_singleton]
    cases entry with
    | decision decision => exact (addDecision_date _ decision).trans ih
    | alert alert => exact ih

theorem counts_recorded (date : Date) (entries : List Entry) :
    (recorded date entries).Counts (decisions entries) (alerts entries) := by
  induction entries using List.reverseRecOn with
  | nil => exact counts_empty date
  | append_singleton entries entry ih =>
    rw [recorded_append_singleton, decisions_append_singleton, alerts_append_singleton]
    cases entry with
    | decision decision =>
      rw [Entry.alert?, Option.toList_none, List.append_nil]
      exact ih.addDecision decision
    | alert alert =>
      rw [Entry.decision?, Option.toList_none, List.append_nil]
      exact ih.addAlert alert

/-- A decision is counted before its time goes into the mean. -/
theorem times_addDecision (row : DailyStats) (decision : Decision) :
    (row.addDecision decision).times = row.times.add .binary64 decision.evaluationTimeMs := by
  simp only [times, addDecision, Times.add, Arithmetic.binary64]
  rfl

theorem times_recorded (date : Date) (entries : List Entry) :
    (recorded date entries).times =
      Times.of .binary64 ((decisions entries).map Decision.evaluationTimeMs) := by
  induction entries using List.reverseRecOn with
  | nil =>
    simp only [times, recorded, empty, decisions, Times.of, List.foldl_nil, List.filterMap_nil,
      List.map_nil, Arithmetic.binary64_ofNat]
  | append_singleton entries entry ih =>
    rw [recorded_append_singleton, decisions_append_singleton, List.map_append]
    cases entry with
    | decision decision =>
      refine Eq.trans ?_ (Times.of_append_singleton _ _ _).symm
      rw [← ih]
      exact times_addDecision _ decision
    | alert alert =>
      rw [Entry.decision?, Option.toList_none, List.map_nil, List.append_nil]
      exact ih

/-! ## Numbers that agree -/

section Tag

variable {α : Type} [DecidableEq α] {tag : Decision → Option α} {keys : List α}
  {decisions : List Decision}

/-- Where just the blocks have a tag, the numbers for each tag add up to the number of blocks. -/
theorem sum_blocksTagged (htag : ∀ decision ∈ decisions, (tag decision).isSome = decision.isBlock)
    (hkeys : keys.Nodup) (hall : ∀ key, key ∈ keys) :
    (keys.map fun key => blocksTagged tag key decisions).sum = decisions.countP Decision.isBlock := by
  have hcount : ∀ key, blocksTagged tag key decisions = decisions.countP (tag · = some key) := by
    intro key
    refine List.countP_congr fun decision hmem => ?_
    have hblock := htag decision hmem
    cases hgiven : tag decision with
    | none => simp
    | some other => simp [← hblock, hgiven]
  rw [funext hcount, sum_map_countP tag hkeys]
  refine List.countP_congr fun decision hmem => ?_
  rw [← htag decision hmem]
  cases tag decision with
  | none => simp
  | some key => simp [hall]

end Tag

theorem balanced_of_counts {row : DailyStats} {decisions : List Decision}
    {alerts : List AlertRecord} (h : row.Counts decisions alerts)
    (htagged : ∀ decision ∈ decisions, decision.Tagged) : row.Balanced := by
  have htotal : row.totalEvaluations = row.executeCount + row.blockCount := by
    rw [h.total, h.executes, h.blocks, List.length_eq_countP_add_countP Decision.isExecute]
    congr 1
    refine List.countP_congr fun decision _ => ?_
    simp [Decision.isExecute_eq]
  refine ⟨htotal, ?_, ?_, ?_, ?_, fun hcount => ?_⟩
  · rw [h.byCategory, List.map_map]
    exact List.map_id Category.all
  · rw [h.bySeverity, List.map_map]
    exact List.map_id Severity.all
  · rw [h.byCategory, List.map_map, h.blocks]
    exact sum_blocksTagged (fun decision hmem => (htagged decision hmem).category_isSome)
      (by decide) Category.mem_all
  · rw [h.bySeverity, List.map_map, h.blocks]
    exact sum_blocksTagged (fun decision hmem => (htagged decision hmem).severity)
      (by decide) Severity.mem_all
  · unfold blockRate
    split
    · exact ⟨Binary64.ofNat_zero_le 0, Binary64.ofNat_zero_le 100⟩
    · exact Binary64.percent_mem (by omega) (by omega) hcount

/-- Rows with the same numbers and the same greatest time are the same but for the mean. -/
theorem Counts.eq_of_greatest {row other : DailyStats} {decisions : List Decision}
    {alerts : List AlertRecord} (h : row.Counts decisions alerts)
    (hother : other.Counts decisions alerts) (hdate : row.date = other.date)
    (hgreatest : row.maxEvaluationTimeMs = other.maxEvaluationTimeMs) :
    { other with avgEvaluationTimeMs := row.avgEvaluationTimeMs } = row := by
  cases row
  cases other
  obtain ⟨rfl, rfl, rfl, rfl, rfl, rfl, rfl⟩ := h
  obtain ⟨rfl, rfl, rfl, rfl, rfl, rfl, rfl⟩ := hother
  subst hdate hgreatest
  rfl

/-! ## The law -/

/-- Of two rows with the same entries in any order, the one with the mean of the other is the
other. -/
theorem recorded_perm (date : Date) {entries others : List Entry} (hperm : entries.Perm others) :
    { recorded date others with avgEvaluationTimeMs := (recorded date entries).avgEvaluationTimeMs } =
      recorded date entries := by
  have hcounts := (counts_recorded date others).perm (hperm.symm.filterMap _) (hperm.symm.filterMap _)
  refine (counts_recorded date entries).eq_of_greatest hcounts ?_ ?_
  · rw [recorded_date, recorded_date]
  · have hgreatest := Times.greatest_of_perm Arithmetic.ordered_binary64
      ((hperm.filterMap Entry.decision?).map Decision.evaluationTimeMs)
    have hentries := congrArg Times.greatest (times_recorded date entries)
    have hothers := congrArg Times.greatest (times_recorded date others)
    exact hentries.trans (hgreatest.trans hothers.symm)

theorem aggregates_of_built (date : Date) {entries : List Entry}
    (hbuilt : ∀ decision ∈ decisions entries, decision.Built)
    (hpast : ∀ decision ∈ decisions entries,
      Binary64.le (.ofNat 0) decision.evaluationTimeMs = true) :
    (recorded date entries).Aggregates entries := by
  have hcounts := counts_recorded date entries
  have htimes := times_recorded date entries
  have hgreatest := Times.isGreatest_of Arithmetic.ordered_binary64
    ((decisions entries).map Decision.evaluationTimeMs)
  rw [← htimes] at hgreatest
  obtain ⟨hle, hmem⟩ := hgreatest.of_binary64 (List.forall_mem_map.2 hpast)
  refine ⟨hcounts, balanced_of_counts hcounts fun decision hmade => (hbuilt decision hmade).tagged,
    htimes, fun time hvalues => ?_, List.forall_mem_map.1 hle, fun hne => ?_⟩
  · exact Times.exact_of_rational (List.forall_mem_map.2 hvalues)
  · obtain ⟨_, htime, hlast⟩ := hmem (mt List.map_eq_nil_iff.1 hne)
    obtain ⟨decision, hmade, rfl⟩ := List.mem_map.1 htime
    exact ⟨decision, hmade, hlast⟩

/-- A row of decisions made by the constructors, none of which took less than no time, is their
aggregate. In whatever order they and the alerts came, without rounding it is the same row, and with
rounding it is but for the mean. -/
theorem aggregates_recorded (date : Date) (entries : List Entry)
    (hbuilt : ∀ decision ∈ decisions entries, decision.Built)
    (hpast : ∀ decision ∈ decisions entries,
      Binary64.le (.ofNat 0) decision.evaluationTimeMs = true) :
    (recorded date entries).Aggregates entries ∧
    ∀ others : List Entry, entries.Perm others →
      { recorded date others with
        avgEvaluationTimeMs := (recorded date entries).avgEvaluationTimeMs } =
          recorded date entries ∧
      ∀ time : Decision → ℚ, Times.of .rational ((decisions others).map time) =
        Times.of .rational ((decisions entries).map time) := by
  refine ⟨aggregates_of_built date hbuilt hpast, fun others hperm => ?_⟩
  refine ⟨recorded_perm date hperm, fun time => Times.of_rational_perm ?_⟩
  exact (hperm.symm.filterMap _).map time

/-! ## A sample row -/

/-- A block, an execution that took three milliseconds, and an alert about the block. -/
def sampleEntries : List Entry :=
  [.decision (Store.sampleBlock .epoch),
    .decision (.execute "GUARD-2" none [] (.ofNat 3) .epoch),
    .alert { AlertRecord.fresh (.ofNat 1) "GUARD-1" AlertRecord.tradeBlocked .critical "" ""
      .epoch with sent := true }]

theorem aggregates_sampleEntries :
    (recorded (Instant.date .epoch) sampleEntries).totalEvaluations = 2 ∧
      (recorded (Instant.date .epoch) sampleEntries).Aggregates sampleEntries ∧
      { recorded (Instant.date .epoch) sampleEntries.reverse with
        avgEvaluationTimeMs :=
          (recorded (Instant.date .epoch) sampleEntries).avgEvaluationTimeMs } =
        recorded (Instant.date .epoch) sampleEntries := by
  have hdecisions : decisions sampleEntries =
    [Store.sampleBlock .epoch, .execute "GUARD-2" none [] (.ofNat 3) .epoch] := rfl
  have hbuilt : ∀ decision ∈ decisions sampleEntries, decision.Built := by
    rw [hdecisions]
    simp only [List.forall_mem_cons]
    exact ⟨.internalError .., .execute .., fun _ h => nomatch h⟩
  have hpast : ∀ decision ∈ decisions sampleEntries,
      Binary64.le (.ofNat 0) decision.evaluationTimeMs = true := by
    rw [hdecisions]
    simp only [List.forall_mem_cons, Store.sampleBlock, Decision.internalError, Decision.execute]
    exact ⟨Binary64.ofNat_zero_le 0, Binary64.ofNat_zero_le 3, fun _ h => nomatch h⟩
  obtain ⟨haggregates, hany⟩ := aggregates_recorded (Instant.date .epoch) sampleEntries hbuilt hpast
  refine ⟨?_, haggregates, (hany _ (List.reverse_perm sampleEntries).symm).1⟩
  rw [haggregates.counts.total, hdecisions]
  rfl

end DailyStats

end TradeGate
