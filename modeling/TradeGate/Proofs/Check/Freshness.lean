import TradeGate.Proofs.Check.Preset
import TradeGate.Proofs.Number.Millis
import TradeGate.Proofs.Time.Span

/-!
# How exactly ages are judged

An age is cut to whole milliseconds, divided into seconds and compared with a limit in seconds.
Under a limit of whole milliseconds the division loses nothing (`le_div_thousand_iff`), so that the
checks of ages object exactly to what outlasts the limit in whole milliseconds
(`judgesAges_of_le`): to what is longer by a whole millisecond or more. What is longer by less
passes.
-/

namespace TradeGate

-- Powers are those of the core library.
attribute [local instance (high)] instPowNat

namespace Instant

/-! ## Ages -/

/-- A span of nanoseconds outlasts a limit of milliseconds: by a whole millisecond, or, where the
limit is negative, at all. -/
def Outlasts (m nanos : Int) : Prop :=
  if 0 ≤ m then (m + 1) * 1000000 ≤ nanos else m * 1000000 < nanos

instance (m nanos : Int) : Decidable (Outlasts m nanos) :=
  inferInstanceAs (Decidable (ite _ _ _))

/-- That is how the span compares when it is cut to whole milliseconds toward zero. -/
theorem lt_tdiv_iff (m nanos : Int) : m < nanos.tdiv 1000000 ↔ Outlasts m nanos := by
  unfold Outlasts
  rcases Int.le_total 0 nanos with hpos | hneg
  · rw [Int.tdiv_eq_ediv_of_nonneg hpos]
    split <;> omega
  · have hflip : nanos.tdiv 1000000 = -(-nanos / 1000000) := by
      rw [← Int.tdiv_eq_ediv_of_nonneg (by omega), Int.neg_tdiv, Int.neg_neg]
    rw [hflip]
    split <;> omega

theorem nanosSince_swap (t earlier : Instant) : earlier.nanosSince t = -t.nanosSince earlier := by
  unfold nanosSince nanosPerSecond
  dsimp only
  split <;> split <;> omega

/-- The milliseconds between two instants fit 64 bits. -/
theorem natAbs_millis_lt (t earlier : Instant) :
    ((t.nanosSince earlier).tdiv 1000000).natAbs < 2 ^ (64 : Nat) := by
  obtain ⟨hlow, hhigh⟩ := nanosSince_mem t earlier
  have hlongest : longestSpan < 2 ^ (64 : Nat) * 1000000 := by decide
  rw [Int.natAbs_tdiv]
  refine (Nat.div_lt_iff_lt_mul (by decide)).2 ?_
  have hmillion : Int.natAbs 1000000 = 1000000 := rfl
  omega

variable {m : Int}

theorem exceeds_ofMillis_iff (hm : m.natAbs ≤ Binary64.exactMillis) (now earlier : Instant) :
    (now.ageSeconds earlier).exceeds (.ofMillis m) = true ↔
      Outlasts m (now.nanosSince earlier) := by
  rw [Binary64.exceeds, Bool.not_eq_true', ← Bool.not_eq_true, ageSeconds,
    Binary64.le_div_thousand_iff (natAbs_millis_lt now earlier) hm, Int.not_le, lt_tdiv_iff]

theorem fallsBelow_neg_ofMillis_iff (hm : m.natAbs ≤ Binary64.exactMillis) (now later : Instant) :
    (now.ageSeconds later).fallsBelow (-.ofMillis m) = true ↔
      Outlasts m (later.nanosSince now) := by
  rw [Binary64.fallsBelow, Bool.not_eq_true', ← Bool.not_eq_true, ageSeconds,
    Binary64.neg_ofMillis_le_iff (natAbs_millis_lt now later) hm, Int.not_le, ← lt_tdiv_iff,
    nanosSince_swap, Int.neg_tdiv]
  omega

end Instant

/-! ## The checks -/

/-- What the checks of ages object to at `now`, each under a limit of `m` milliseconds: spans of
nanoseconds that are too long. -/
structure JudgesAges (tooLong : Int → Prop) (m : Int) (now : Instant) : Prop where
  request : ∀ (policy : IntegrityPolicy) (intent : TradeIntent),
    policy.maxRequestAgeSeconds = .ofMillis m →
      Answers (policy.requestStale intent now)
        ⟨tooLong (now.nanosSince intent.timestamp), .timestampInconsistency, .medium⟩
  future : ∀ (policy : IntegrityPolicy) (intent : TradeIntent),
    policy.maxFutureTimestampSeconds = .ofMillis m →
      Answers (policy.requestFuture intent now)
        ⟨tooLong (intent.timestamp.nanosSince now), .clockDrift, .high⟩
  marketData : ∀ (policy : IntegrityPolicy) (system : SystemState),
    policy.maxMarketDataAgeSeconds = .ofMillis m →
      Answers (policy.marketDataStale system now)
        ⟨tooLong (now.nanosSince system.marketDataTimestamp), .staleMarketData, .high⟩
  positionSync : ∀ (policy : ConsistencyPolicy) (account : AccountState),
    policy.requirePositionSync = true → policy.maxPositionSyncAgeSeconds = .ofMillis m →
      Answers (policy.syncStale account now)
        ⟨∃ lastSync ∈ account.lastSyncTimestamp, tooLong (now.nanosSince lastSync),
          .positionStateMismatch, .high⟩

open Binary64 (exactMillis)
open Instant (Outlasts exceeds_ofMillis_iff fallsBelow_neg_ofMillis_iff)

/-- Under every limit of whole milliseconds up to `2 ^ 43` seconds the checks of ages object exactly
to what outlasts the limit. -/
theorem judgesAges_of_le (m : Int) (hm : m.natAbs ≤ exactMillis) (now : Instant) :
    JudgesAges (Outlasts m) m now where
  request := by
    intro policy intent hlimit
    refine answers_when ?_
    rw [hlimit]
    exact exceeds_ofMillis_iff hm now _
  future := by
    intro policy intent hlimit
    refine answers_when ?_
    rw [hlimit]
    exact fallsBelow_neg_ofMillis_iff hm now _
  marketData := by
    intro policy system hlimit
    refine answers_when ?_
    rw [hlimit]
    exact exceeds_ofMillis_iff hm now _
  positionSync := by
    intro policy account hrequired hlimit
    refine answers_bind fun lastSync => answers_when ?_
    rw [hrequired, Bool.true_and, hlimit]
    exact exceeds_ofMillis_iff hm now lastSync

/-! ## Market data of thirty seconds -/

/-- Thirty seconds and a nanosecond after noon. -/
def nanosecondPast : Instant := (Instant.ofParts? 1714564830 1).getD .epoch

/-- Thirty seconds and a millisecond after noon. -/
def millisecondPast : Instant := (Instant.ofParts? 1714564830 1000000).getD .epoch

theorem standard_limit_eq : IntegrityPolicy.standard.maxMarketDataAgeSeconds = .ofMillis 30000 := by
  decide +kernel

/-- A millisecond past the limit the data are stale, and a nanosecond past it they are not. -/
theorem judgesAges_thirtySeconds :
    (30000 : Int).natAbs ≤ exactMillis ∧
      (IntegrityPolicy.standard.marketDataStale (Sections.calm "r-1" .noon).system
        millisecondPast).isSome = true ∧
      ¬ (IntegrityPolicy.standard.marketDataStale (Sections.calm "r-1" .noon).system
        nanosecondPast).isSome = true := by
  have hle : (30000 : Int).natAbs ≤ exactMillis := by decide
  refine ⟨hle, ?_, ?_⟩
  · rw [((judgesAges_of_le 30000 hle millisecondPast).marketData _ _ standard_limit_eq).isSome_iff]
    decide
  · rw [((judgesAges_of_le 30000 hle nanosecondPast).marketData _ _ standard_limit_eq).isSome_iff]
    decide

/-- A limit of a millisecond more than the bound. -/
def patient : IntegrityPolicy :=
  { IntegrityPolicy.standard with maxMarketDataAgeSeconds := .ofMillis (exactMillis + 1) }

/-- Two milliseconds more than the bound after the first instant there is. -/
def twoPastBound : Instant :=
  (Instant.ofParts? (Instant.firstSecond + (exactMillis / 1000 : Nat)) 2000000).getD .epoch

theorem marketDataStale_of_within {policy : IntegrityPolicy} {system : SystemState} {now : Instant}
    (h : (now.ageSeconds system.marketDataTimestamp).exceeds
      policy.maxMarketDataAgeSeconds = false) :
    policy.marketDataStale system now = none := by
  unfold IntegrityPolicy.marketDataStale
  dsimp only
  rw [h]
  rfl

/-- The checks do not tell nanoseconds past a limit, and beyond the bound not every millisecond. -/
theorem not_judgesAges_past :
    ¬ JudgesAges (fun nanos => 30000 * 1000000 < nanos) 30000 nanosecondPast ∧
      ¬ JudgesAges (Outlasts (exactMillis + 1)) (exactMillis + 1) twoPastBound := by
  constructor
  · intro h
    have hstale := (h.marketData .standard (Sections.calm "r-1" .noon).system
      standard_limit_eq).isSome_iff.2 (by decide)
    rw [marketDataStale_of_within (by decide +kernel)] at hstale
    exact nomatch hstale
  · intro h
    have hlimit : patient.maxMarketDataAgeSeconds = .ofMillis (exactMillis + 1) := by
      simp only [patient]
    have hstale := (h.marketData patient (Sections.calm "r-1" .earliest).system
      hlimit).isSome_iff.2 (by decide)
    rw [marketDataStale_of_within (by decide +kernel)] at hstale
    exact nomatch hstale

end TradeGate
