import TradeGate.Proofs.Time.Span

/-!
# Looking back from an instant

How far back a query or a cleanup looks is a number of whole seconds, cut off at the first instant
there is. From an instant outside leap seconds a longer look back reaches no less far than a shorter
one from any later instant (`subOrEarliest_le_subOrEarliest`). A clock is `Regular` for a span if
looking back and measuring agree on what is older than the span.
-/

namespace TradeGate

namespace Instant

theorem ofParts?_eq_some {seconds nanos : Int}
    (h : (firstSecond ≤ seconds ∧ seconds ≤ lastSecond) ∧ 0 ≤ nanos ∧ nanos < 2 * nanosPerSecond ∧
      (nanosPerSecond ≤ nanos → seconds % 60 = 59)) :
    ofParts? seconds nanos = some ⟨seconds, nanos, h.1, h.2.1, h.2.2.1, h.2.2.2⟩ :=
  dif_pos h

theorem earliest_le (t : Instant) : earliest ≤ t := by
  have hfirst := t.seconds_mem.1
  have hnanos := t.nanos_nonneg
  rw [le_def]
  simp only [ticks, earliest, nanosPerSecond]
  omega

/-- Outside leap seconds the places on the line tell the order of instants. -/
theorem le_of_unixNanos_le {a b : Instant} (h : a.unixNanos ≤ b.unixNanos) (ha : a.isLeap = false)
    (hb : b.isLeap = false) : a ≤ b := by
  have ha' := nanos_lt_of_not_isLeap ha
  have hb' := nanos_lt_of_not_isLeap hb
  have := a.nanos_nonneg
  have := b.nanos_nonneg
  rw [le_def]
  simp only [ticks, unixNanos, nanosPerSecond] at *
  omega

theorem seconds_le_seconds {a b : Instant} (h : a ≤ b) : a.seconds ≤ b.seconds := by
  have := a.nanos_nonneg
  have := b.nanos_lt
  rw [le_def] at h
  simp only [ticks, nanosPerSecond] at *
  omega

theorem date_le_date {a b : Instant} (h : a ≤ b) : a.date.dayNumber ≤ b.date.dayNumber := by
  have hseconds := seconds_le_seconds h
  simp only [date, secondsPerDay]
  omega

theorem earliest_date_le (t : Instant) : Date.earliest.dayNumber ≤ t.date.dayNumber := by
  have hfirst := t.seconds_mem.1
  simp only [date, firstSecond, secondsPerDay] at *
  omega

/-- The parts of an instant make it. -/
theorem ofParts?_parts (t : Instant) : ofParts? t.seconds t.nanos = some t :=
  dif_pos ⟨t.seconds_mem, t.nanos_nonneg, t.nanos_lt, t.leap⟩

theorem sub?_zero (t : Instant) : t.sub? 0 = some t := by
  have hnanos := t.nanos_nonneg
  unfold sub? add?
  cases h : t.isLeap with
  | true => simp [nanosPerSecond, ofParts?_parts]
  | false =>
    have hlt := nanos_lt_of_not_isLeap h
    unfold nanosPerSecond at *
    have hdiv : t.nanos / 1000000000 = 0 := by omega
    have hmod : t.nanos % 1000000000 = t.nanos := by omega
    simp [hdiv, hmod, ofParts?_parts]

/-- The instant some whole seconds before, where it lies, and when there is none. -/
theorem sub?_seconds (t : Instant) {span : Nat} (hspan : 0 < span) :
    (∃ earlier, t.sub? (span * nanosPerSecond) = some earlier ∧ earlier.isLeap = false ∧
      earlier.unixNanos = t.unixNanos - span * nanosPerSecond) ∨
    (t.sub? (span * nanosPerSecond) = none ∧
      t.unixNanos - span * nanosPerSecond < firstSecond * nanosPerSecond) := by
  have hmem := t.seconds_mem
  have hnanos := t.nanos_nonneg
  have hlt := t.nanos_lt
  have htdiv : (-((span : Int) * nanosPerSecond)).tdiv nanosPerSecond = -span := by
    rw [Int.neg_tdiv, Int.mul_tdiv_cancel _ (by decide)]
  have htmod : (-((span : Int) * nanosPerSecond)).tmod nanosPerSecond = 0 := by
    rw [Int.neg_tmod, Int.mul_tmod_left, Int.neg_zero]
  -- inside a leap second and outside of it the parts are those of the place on the line
  have hparts : t.sub? (span * nanosPerSecond) =
      ofParts? (t.unixNanos / nanosPerSecond - span) (t.unixNanos % nanosPerSecond) := by
    unfold sub? add?
    rw [htdiv, htmod]
    cases h : t.isLeap with
    | true =>
      have hover : nanosPerSecond ≤ t.nanos := by simpa [isLeap] using h
      rw [if_pos rfl, if_neg (by omega), if_pos (by omega)]
      simp only [unixNanos, nanosPerSecond] at *
      congr 1 <;> omega
    | false =>
      rw [if_neg Bool.false_ne_true]
      simp only [unixNanos, nanosPerSecond] at *
      congr 1 <;> omega
  rw [hparts]
  by_cases hfirst : firstSecond ≤ t.unixNanos / nanosPerSecond - span
  · left
    refine ⟨_, ofParts?_eq_some ⟨⟨hfirst, ?_⟩, ?_⟩, ?_, ?_⟩
    · simp only [unixNanos, nanosPerSecond] at *
      omega
    · simp only [unixNanos, nanosPerSecond] at *
      omega
    · simp only [isLeap, unixNanos, nanosPerSecond] at *
      exact decide_eq_false (by omega)
    · simp only [unixNanos, nanosPerSecond] at *
      omega
  · right
    refine ⟨dif_neg fun h => hfirst h.1.1, ?_⟩
    simp only [unixNanos, nanosPerSecond] at *
    omega

/-- There is no instant so many seconds before another one that no two are so far apart. -/
theorem sub?_eq_none (t : Instant) {span : Nat} (hspan : longestSpan < span * nanosPerSecond) :
    t.sub? (span * nanosPerSecond) = none := by
  have hmem := t.seconds_mem
  have hlt := t.nanos_lt
  have hpos : 0 < span := by
    unfold longestSpan at hspan
    simp only [nanosPerSecond] at hspan
    omega
  rcases sub?_seconds t hpos with ⟨earlier, -, -, hplace⟩ | ⟨hnone, -⟩
  · have hfirst := earlier.seconds_mem.1
    have hnanos := earlier.nanos_nonneg
    unfold longestSpan at hspan
    simp only [unixNanos, nanosPerSecond] at *
    omega
  · exact hnone

/-- What is later than the cutoff some seconds before an instant is less than these seconds old. -/
theorem lt_unixNanos_of_subOrEarliest_lt {t seen : Instant} {span : Nat} (hspan : 0 < span)
    (hseen : seen.isLeap = false) (h : t.subOrEarliest (span * nanosPerSecond) < seen) :
    t.unixNanos - span * nanosPerSecond < seen.unixNanos := by
  rcases sub?_seconds t hspan with ⟨cutoff, hcutoff, hleap, hplace⟩ | ⟨-, hbefore⟩
  · unfold subOrEarliest at h
    rw [hcutoff, Option.getD_some] at h
    refine Int.not_le.1 fun hle => ?_
    have hback : seen ≤ cutoff := le_of_unixNanos_le (by omega) hseen hleap
    exact absurd h (Int.not_lt.2 hback)
  · have hfirst := seen.seconds_mem.1
    have hnanos := seen.nanos_nonneg
    simp only [unixNanos, nanosPerSecond] at *
    omega

/-- Where one instant has a cutoff some seconds before it, every later one has a cutoff that is not
earlier. -/
theorem exists_sub?_of_le {t later cutoff : Instant} {span : Nat} (hspan : 0 < span)
    (ht : t.isLeap = false) (hlater : t ≤ later) (h : t.sub? (span * nanosPerSecond) = some cutoff) :
    ∃ next, later.sub? (span * nanosPerSecond) = some next ∧ cutoff ≤ next := by
  obtain ⟨hplace, hcutoff⟩ := unixNanos_of_sub? ht h
  have hline := unixNanos_le_unixNanos hlater ht
  rcases sub?_seconds later hspan with ⟨next, hnext, hleap, hplace'⟩ | ⟨-, hbefore⟩
  · exact ⟨next, hnext, le_of_unixNanos_le (by omega) hcutoff hleap⟩
  · have hfirst := cutoff.seconds_mem.1
    have hnanos := cutoff.nanos_nonneg
    simp only [unixNanos, nanosPerSecond] at *
    omega

/-- A longer look back reaches no less far, inside a leap second too. -/
theorem subOrEarliest_antitone (t : Instant) {long short : Nat} (hshort : short ≤ long) :
    t.subOrEarliest (long * nanosPerSecond) ≤ t.subOrEarliest (short * nanosPerSecond) := by
  unfold subOrEarliest
  rcases Nat.eq_zero_or_pos long with hzero | hlong
  · obtain rfl : short = long := by omega
    exact Int.le_refl _
  rcases sub?_seconds t hlong with ⟨c, hc, hcleap, hcplace⟩ | ⟨hnone, -⟩
  · have hcnanos := nanos_lt_of_not_isLeap hcleap
    have := c.nanos_nonneg
    have := c.seconds_mem
    have := t.nanos_nonneg
    have := t.nanos_lt
    rw [hc, Option.getD_some]
    rcases Nat.eq_zero_or_pos short with hzero | hpos
    · rw [hzero, Int.natCast_zero, Int.zero_mul, sub?_zero, Option.getD_some, le_def]
      simp only [ticks, unixNanos, nanosPerSecond] at *
      omega
    · rcases sub?_seconds t hpos with ⟨c', hc', hcleap', hcplace'⟩ | ⟨-, hbefore⟩
      · rw [hc', Option.getD_some]
        refine le_of_unixNanos_le ?_ hcleap hcleap'
        simp only [nanosPerSecond] at *
        omega
      · simp only [unixNanos, nanosPerSecond] at *
        omega
  · rw [hnone]
    exact earliest_le _

/-- The same with the seconds as a number of units. -/
theorem subOrEarliest_units_antitone (t : Instant) (unit : Nat) {short long : UInt32}
    (h : short ≤ long) :
    t.subOrEarliest (long.toNat * unit * nanosPerSecond) ≤
      t.subOrEarliest (short.toNat * unit * nanosPerSecond) := by
  have hunits : short.toNat * unit ≤ long.toNat * unit :=
    Nat.mul_le_mul_right unit (UInt32.le_iff_toNat_le.1 h)
  have hle := subOrEarliest_antitone t hunits
  rwa [Int.natCast_mul, Int.natCast_mul] at hle

/-- A longer look back from an earlier instant reaches no less far. -/
theorem subOrEarliest_le_subOrEarliest {t later : Instant} {long short : Nat} (ht : t.isLeap = false)
    (hlater : t ≤ later) (hshort : short ≤ long) :
    t.subOrEarliest (long * nanosPerSecond) ≤ later.subOrEarliest (short * nanosPerSecond) := by
  refine Int.le_trans (subOrEarliest_antitone t hshort) ?_
  show t.subOrEarliest _ ≤ later.subOrEarliest _
  unfold subOrEarliest
  rcases Nat.eq_zero_or_pos short with rfl | hpos
  · simpa [sub?_zero] using hlater
  · cases hcutoff : t.sub? (short * nanosPerSecond) with
    | none => exact earliest_le _
    | some cutoff =>
      obtain ⟨next, hnext, hle⟩ := exists_sub?_of_le hpos ht hlater hcutoff
      rw [hnext]
      exact hle

/-! ## What a look back leaves out -/

/-- The look back of a span from `now` ends at `seen` or later. -/
def CutsOff (span : Int) (now seen : Instant) : Prop :=
  ∃ cutoff, now.sub? span = some cutoff ∧ seen ≤ cutoff

/-- Along the readings, a look back of the span cuts off what is as old as the span; and what is that
old stays so at later readings, and comes after readings that are so too. -/
structure Regular (span : Int) (readings : List Instant) : Prop where
  cutsOff_iff : ∀ seen now, [seen, now].Sublist readings →
    (CutsOff span now seen ↔ span ≤ now.nanosSince seen)
  stays : ∀ seen now later, [seen, now, later].Sublist readings →
    span ≤ now.nanosSince seen → span ≤ later.nanosSince seen
  before : ∀ earlier seen now, [earlier, seen, now].Sublist readings →
    span ≤ now.nanosSince seen → span ≤ now.nanosSince earlier

theorem Regular.sublist {span : Int} {readings others : List Instant} (h : Regular span readings)
    (hsub : others.Sublist readings) : Regular span others where
  cutsOff_iff seen now hpair := h.cutsOff_iff seen now (hpair.trans hsub)
  stays seen now later htriple := h.stays seen now later (htriple.trans hsub)
  before earlier seen now htriple := h.before earlier seen now (htriple.trans hsub)

theorem cutsOff_iff_of_not_isLeap {span : Nat} (hspan : 0 < span) {now seen : Instant}
    (hnow : now.isLeap = false) (hseen : seen.isLeap = false) :
    CutsOff (span * nanosPerSecond) now seen ↔ span * nanosPerSecond ≤ now.nanosSince seen := by
  rw [nanosSince_eq_sub hnow hseen]
  rcases sub?_seconds now hspan with ⟨cutoff, hcutoff, hleap, hplace⟩ | ⟨hnone, hbefore⟩
  · constructor
    · rintro ⟨other, hother, hle⟩
      obtain rfl : cutoff = other := Option.some.inj (hcutoff.symm.trans hother)
      have hline := unixNanos_le_unixNanos hle hseen
      omega
    · intro hold
      exact ⟨cutoff, hcutoff, le_of_unixNanos_le (by omega) hseen hleap⟩
  · -- nothing is so old that it lies before the first instant
    have hfirst := seen.seconds_mem.1
    have hnanos := seen.nanos_nonneg
    constructor
    · rintro ⟨other, hother, -⟩
      exact nomatch hnone.symm.trans hother
    · intro hold
      simp only [unixNanos, nanosPerSecond] at *
      omega

/-- A clock that does not go back and does not read inside a leap second is regular, whatever the
span. -/
theorem regular_of_pairwise {span : Nat} (hspan : 0 < span) {readings : List Instant}
    (hsorted : readings.Pairwise (· ≤ ·)) (hleap : ∀ t ∈ readings, t.isLeap = false) :
    Regular (span * nanosPerSecond) readings where
  cutsOff_iff seen now hpair :=
    cutsOff_iff_of_not_isLeap hspan (hleap now (hpair.subset (by simp)))
      (hleap seen (hpair.subset (by simp)))
  stays seen now later htriple hold := by
    have hle := hsorted.sublist htriple
    simp only [List.pairwise_cons, List.mem_cons, List.not_mem_nil, or_false] at hle
    exact Int.le_trans hold (nanosSince_le_nanosSince_left (hle.2.1 later rfl)
      (hleap seen (htriple.subset (by simp))) (hleap now (htriple.subset (by simp)))
      (hleap later (htriple.subset (by simp))))
  before earlier seen now htriple hold := by
    have hle := hsorted.sublist htriple
    simp only [List.pairwise_cons, List.mem_cons, List.not_mem_nil, or_false] at hle
    exact Int.le_trans hold (nanosSince_le_nanosSince_right (hle.1 seen (Or.inl rfl))
      (hleap earlier (htriple.subset (by simp))) (hleap seen (htriple.subset (by simp)))
      (hleap now (htriple.subset (by simp))))

end Instant

end TradeGate
