import TradeGate.Time.Instant

/-!
# Spans between instants

Outside leap seconds the span from one instant to another is the difference of their places on one
line, so spans grow with the distance. Inside a leap second they need not: `Orderly` is what a
window over a clock asks for, and `orderly_of_pairwise` finds it in every clock that does not go
back and never reads inside a leap second. `SetBackBy` says of a clock that does go back by how much.
-/

namespace TradeGate

namespace Instant

theorem nanosSince_of_not_isLeap {t earlier : Instant} (ht : t.isLeap = false)
    (hearlier : earlier.isLeap = false) :
    t.nanosSince earlier =
      (t.seconds - earlier.seconds) * nanosPerSecond + (t.nanos - earlier.nanos) := by
  unfold nanosSince
  simp only [ht, hearlier, Bool.false_eq_true, and_false, if_false, Int.add_zero]

theorem nanos_lt_of_not_isLeap {t : Instant} (ht : t.isLeap = false) : t.nanos < nanosPerSecond := by
  unfold isLeap at ht
  simpa using ht

theorem nanosSince_self (t : Instant) : t.nanosSince t = 0 := by
  simp [nanosSince]

/-- Outside leap seconds a later instant is no nearer to what lies before. -/
theorem nanosSince_le_nanosSince_left {a b c : Instant} (hbc : b ≤ c) (ha : a.isLeap = false)
    (hb : b.isLeap = false) (hc : c.isLeap = false) : b.nanosSince a ≤ c.nanosSince a := by
  rw [nanosSince_of_not_isLeap hb ha, nanosSince_of_not_isLeap hc ha]
  have hb' := nanos_lt_of_not_isLeap hb
  have hc' := c.nanos_nonneg
  rw [le_def] at hbc
  unfold ticks at hbc
  unfold nanosPerSecond at *
  omega

/-- Outside leap seconds what lies later is no farther away. -/
theorem nanosSince_le_nanosSince_right {a b c : Instant} (hab : a ≤ b) (ha : a.isLeap = false)
    (hb : b.isLeap = false) (hc : c.isLeap = false) : c.nanosSince b ≤ c.nanosSince a := by
  rw [nanosSince_of_not_isLeap hc hb, nanosSince_of_not_isLeap hc ha]
  have ha' := nanos_lt_of_not_isLeap ha
  have hb' := b.nanos_nonneg
  rw [le_def] at hab
  unfold ticks at hab
  unfold nanosPerSecond at *
  omega

/-! ## Places on the line -/

/-- Nanoseconds from the epoch, in which leap seconds have no room. -/
def unixNanos (t : Instant) : Int := t.seconds * nanosPerSecond + t.nanos

theorem nanosSince_eq_sub {t earlier : Instant} (ht : t.isLeap = false)
    (hearlier : earlier.isLeap = false) :
    t.nanosSince earlier = t.unixNanos - earlier.unixNanos := by
  rw [nanosSince_of_not_isLeap ht hearlier]
  unfold unixNanos nanosPerSecond
  omega

/-- A leap second adds at most a second to a span. -/
theorem nanosSince_le (t earlier : Instant) :
    t.nanosSince earlier ≤ t.unixNanos - earlier.unixNanos + nanosPerSecond := by
  unfold nanosSince unixNanos nanosPerSecond
  dsimp only
  split
  · omega
  · split <;> omega

/-- Up to an instant outside leap seconds none is taken off. -/
theorem le_nanosSince {t earlier : Instant} (ht : t.isLeap = false) :
    t.unixNanos - earlier.unixNanos ≤ t.nanosSince earlier := by
  unfold nanosSince unixNanos nanosPerSecond
  simp only [ht, Bool.false_eq_true, and_false, if_false]
  split <;> omega

/-- Outside leap seconds the order of instants is that of their places. -/
theorem unixNanos_le_unixNanos {a b : Instant} (hab : a ≤ b) (ha : a.isLeap = false) :
    a.unixNanos ≤ b.unixNanos := by
  have ha' := nanos_lt_of_not_isLeap ha
  have hb' := b.nanos_nonneg
  rw [le_def] at hab
  unfold ticks at hab
  unfold unixNanos
  unfold nanosPerSecond at *
  omega

theorem parts_of_ofParts? {seconds nanos : Int} {t : Instant} (h : ofParts? seconds nanos = some t) :
    t.seconds = seconds ∧ t.nanos = nanos := by
  unfold ofParts? at h
  split at h
  · rw [← Option.some.inj h]
    exact ⟨rfl, rfl⟩
  · exact absurd h.symm (Option.some_ne_none t)

/-- Outside leap seconds an instant a span earlier lies that much before on the line. -/
theorem unixNanos_of_sub? {t earlier : Instant} {span : Int} (ht : t.isLeap = false)
    (h : t.sub? span = some earlier) :
    earlier.unixNanos = t.unixNanos - span ∧ earlier.isLeap = false := by
  unfold sub? add? at h
  rw [ht, if_neg Bool.false_ne_true] at h
  obtain ⟨hseconds, hnanos⟩ := parts_of_ofParts? h
  have hspan := Int.mul_tdiv_add_tmod (-span) nanosPerSecond
  have hcarry := Int.mul_ediv_add_emod (t.nanos + (-span).tmod nanosPerSecond) nanosPerSecond
  have hlt := Int.emod_lt_of_pos (t.nanos + (-span).tmod nanosPerSecond)
    (show 0 < nanosPerSecond by decide)
  constructor
  · unfold unixNanos
    rw [hseconds, hnanos]
    unfold nanosPerSecond at *
    omega
  · unfold isLeap
    rw [hnanos]
    exact decide_eq_false (by omega)

/-- Outside leap seconds an instant a span later lies that much farther on the line. -/
theorem unixNanos_of_add? {t later : Instant} {span : Int} (ht : t.isLeap = false)
    (h : t.add? span = some later) :
    later.unixNanos = t.unixNanos + span ∧ later.isLeap = false := by
  have hback : t.sub? (-span) = some later := by rw [sub?, Int.neg_neg, h]
  obtain ⟨hplace, hleap⟩ := unixNanos_of_sub? ht hback
  exact ⟨by omega, hleap⟩

/-- Whole seconds later is outside leap seconds, and out of a leap second it is one second short. -/
theorem le_unixNanos_of_add? {t later : Instant} {seconds : Int} (hpos : 0 < seconds)
    (h : t.add? (seconds * nanosPerSecond) = some later) :
    t.unixNanos + (seconds - 1) * nanosPerSecond ≤ later.unixNanos ∧ later.isLeap = false := by
  cases ht : t.isLeap with
  | false =>
    obtain ⟨hplace, hleap⟩ := unixNanos_of_add? ht h
    refine ⟨?_, hleap⟩
    unfold nanosPerSecond at *
    omega
  | true =>
    have hover : nanosPerSecond ≤ t.nanos := by simpa [isLeap] using ht
    have hlt := t.nanos_lt
    have htdiv : (seconds * nanosPerSecond).tdiv nanosPerSecond = seconds :=
      Int.mul_tdiv_cancel _ (by decide)
    have htmod : (seconds * nanosPerSecond).tmod nanosPerSecond = 0 := Int.mul_tmod_left _ _
    unfold add? at h
    rw [htdiv, htmod, ht, if_pos rfl, if_pos (Or.inl hpos)] at h
    obtain ⟨hseconds, hnanos⟩ := parts_of_ofParts? h
    unfold isLeap unixNanos
    rw [hseconds, hnanos]
    unfold nanosPerSecond at *
    exact ⟨by omega, decide_eq_false (by omega)⟩

/-- No two instants are farther apart than this, in nanoseconds. -/
def longestSpan : Int := (lastSecond - firstSecond + 3) * nanosPerSecond

theorem nanosSince_mem (t earlier : Instant) :
    -longestSpan ≤ t.nanosSince earlier ∧ t.nanosSince earlier ≤ longestSpan := by
  have ht := t.seconds_mem
  have ht' := t.nanos_nonneg
  have ht'' := t.nanos_lt
  have hearlier := earlier.seconds_mem
  have hearlier' := earlier.nanos_nonneg
  have hearlier'' := earlier.nanos_lt
  unfold nanosSince longestSpan
  generalize firstSecond = first at *
  generalize lastSecond = last at *
  unfold nanosPerSecond at *
  dsimp only
  split
  · omega
  · split <;> omega

/-- In a leap second a later instant can measure as lying before an earlier one, but by less than a
second. -/
theorem neg_lt_nanosSince {a b : Instant} (hab : a ≤ b) : -nanosPerSecond < b.nanosSince a := by
  have ha := a.nanos_lt
  have ha' := a.nanos_nonneg
  have hb := b.nanos_nonneg
  have hb' := b.nanos_lt
  have hleap := b.leap
  rw [le_def] at hab
  unfold nanosSince ticks secondOfDay isLeap secondsPerDay at *
  unfold nanosPerSecond at *
  simp only [decide_eq_true_eq]
  split <;> omega

/-! ## Clocks -/

/-- Along the readings, what is older than the span stays so, and what came later is older than the
span only if what came before it is. -/
def Orderly (span : Int) (readings : List Instant) : Prop :=
  ∀ a b c, [a, b, c].Sublist readings →
    (span < b.nanosSince a → span < c.nanosSince a) ∧
    (c.nanosSince a ≤ span → c.nanosSince b ≤ span)

theorem Orderly.sublist {span : Int} {readings others : List Instant} (h : Orderly span readings)
    (hsub : others.Sublist readings) : Orderly span others :=
  fun a b c habc => h a b c (habc.trans hsub)

/-- A clock that does not go back and does not read inside a leap second is orderly, whatever the
span. -/
theorem orderly_of_pairwise (span : Int) {readings : List Instant}
    (hsorted : readings.Pairwise (· ≤ ·)) (hleap : ∀ t ∈ readings, t.isLeap = false) :
    Orderly span readings := by
  intro a b c habc
  have hmem : ∀ t ∈ [a, b, c], t.isLeap = false := fun t ht => hleap t (habc.subset ht)
  obtain ⟨ha, hb, hc⟩ : a.isLeap = false ∧ b.isLeap = false ∧ c.isLeap = false :=
    ⟨hmem a (by simp), hmem b (by simp), hmem c (by simp)⟩
  obtain ⟨hab, hbc⟩ : a ≤ b ∧ b ≤ c := by
    have := hsorted.sublist habc
    simp only [List.pairwise_cons, List.mem_cons, List.not_mem_nil, or_false] at this
    exact ⟨this.1 b (Or.inl rfl), this.2.1 c rfl⟩
  have hgrow := nanosSince_le_nanosSince_left hbc ha hb hc
  have hnear := nanosSince_le_nanosSince_right hab ha hb hc
  exact ⟨fun h => by omega, fun h => by omega⟩

/-- Along the readings, where what came before is within the span, what came later is older than the
span by no more than the clock was set back. -/
def SetBackBy (back : Nat) (span : Int) (readings : List Instant) : Prop :=
  ∀ a b c, [a, b, c].Sublist readings → c.nanosSince a ≤ span → c.nanosSince b ≤ span + back

/-- A clock that never goes back by more, and never reads inside a leap second, is set back by no
more, whatever the span. -/
theorem setBackBy_of_pairwise (span : Int) {back : Nat} {readings : List Instant}
    (hback : readings.Pairwise fun earlier later => earlier.unixNanos ≤ later.unixNanos + (back : Int))
    (hleap : ∀ t ∈ readings, t.isLeap = false) : SetBackBy back span readings := by
  intro a b c habc hspan
  have hmem : ∀ t ∈ [a, b, c], t.isLeap = false := fun t ht => hleap t (habc.subset ht)
  obtain ⟨ha, hb, hc⟩ : a.isLeap = false ∧ b.isLeap = false ∧ c.isLeap = false :=
    ⟨hmem a (by simp), hmem b (by simp), hmem c (by simp)⟩
  have hab : a.unixNanos ≤ b.unixNanos + back := by
    have := hback.sublist habc
    simp only [List.pairwise_cons, List.mem_cons] at this
    exact this.1 b (Or.inl rfl)
  rw [nanosSince_eq_sub hc ha] at hspan
  rw [nanosSince_eq_sub hc hb]
  omega

/-! ## Sample instants -/

/-- A second after the epoch. -/
def secondAfterEpoch : Instant := (ofParts? 1 0).getD epoch

/-- 2016-12-31T23:00:00Z, an hour before a leap second. -/
def beforeLeap : Instant := (ofParts? 1483225200 0).getD epoch

/-- 2016-12-31T23:00:00.3Z, more than an hour before the middle of that leap second and less than an
hour before its end. -/
def hourBeforeLeap : Instant := (ofParts? 1483225200 300000000).getD epoch

/-- 2016-12-31T23:59:60.5Z, which is 3600.5 seconds after `beforeLeap`. -/
def withinLeap : Instant := (ofParts? 1483228799 1500000000).getD epoch

/-- 2017-01-01T00:00:00Z, which is later than these and 3600 seconds after `beforeLeap`. -/
def afterLeap : Instant := (ofParts? 1483228800 0).getD epoch

/-- 2024-05-01T12:00:00Z. -/
def noon : Instant := (ofParts? 1714564800 0).getD epoch

/-- 2024-05-01T12:01:01Z. -/
def minutePastNoon : Instant := (ofParts? 1714564861 0).getD epoch

/-- 2024-05-01T13:00:00Z. -/
def hourPastNoon : Instant := (ofParts? 1714568400 0).getD epoch

/-- 2024-05-01T13:00:01Z. -/
def longPastNoon : Instant := (ofParts? 1714568401 0).getD epoch

end Instant

end TradeGate
