import TradeGate.Proofs.Alert.History

/-!
# How long to wait

A check that holds an alert back tells the whole seconds that are left of the interval, and leaves out
the part of a second behind them. On a clock without leap seconds one second more is always enough,
and with them three are (`Limiter.WaitSuffices`). The seconds alone are enough only if the delivery
and the check are whole seconds apart (`Limiter.RefusedAgain`).
-/

namespace TradeGate

namespace Limiter

/-! ## Held back -/

theorem checkCap_ne_reasonInterval (limiter : Limiter) (left : Int) :
    limiter.checkCap ≠ .error (.reasonInterval left) := by
  unfold checkCap
  split <;> simp

/-- A check that is held back for the interval knows of a delivery for its reason that is too recent,
and tells the whole seconds that are left. -/
theorem of_checkPruned_eq_reasonInterval {limiter : Limiter} {reason : Reason} {now : Instant}
    {left : Int} (h : limiter.checkPruned reason now = .ok (.error (.reasonInterval left))) :
    ∃ last, limiter.last? reason = some last ∧ now.nanosSince last < limiter.minInterval ∧
      left = (limiter.minInterval - now.nanosSince last) / nanosPerSecond := by
  unfold checkPruned at h
  cases hlast : limiter.last? reason with
  | none =>
    rw [hlast] at h
    exact absurd (Except.ok.inj h) (limiter.checkCap_ne_reasonInterval left)
  | some last =>
    rw [hlast] at h
    dsimp only at h
    by_cases hrecent : now.nanosSince last < limiter.minInterval
    · refine ⟨last, rfl, hrecent, ?_⟩
      rw [if_pos hrecent] at h
      unfold spanSub at h
      split at h
      · rw [← Int.tdiv_eq_ediv_of_nonneg (by omega)]
        exact (LimitExceeded.reasonInterval.inj (Except.error.inj (Except.ok.inj h))).symm
      · exact nomatch h
    · rw [if_neg hrecent] at h
      exact absurd (Except.ok.inj h) (limiter.checkCap_ne_reasonInterval left)

/-- The check is held back because the last delivery for its reason is too recent. -/
def HeldBack (limiter : Limiter) (reason : Reason) (now : Instant) : Prop :=
  ∃ left, (limiter.check reason now).1 = .ok (.error (.reasonInterval left))

/-! ## Checking again -/

/-- The call records a delivery. -/
def Call.isRecord : Call → Bool
  | .record _ _ => true
  | .check _ _ | .reset => false

/-- Calls that record nothing add nothing, and a reset among them takes all away. -/
theorem recorded_append (calls : List Call) {between : List Call}
    (h : ∀ call ∈ between, call.isRecord = false) :
    recorded (calls ++ between) = if .reset ∈ between then [] else recorded calls := by
  induction between using List.reverseRecOn with
  | nil => simp
  | append_singleton between call ih =>
    have hcall := h call (by simp)
    rw [← List.append_assoc, recorded_append_singleton,
      ih fun call hcall => h call (List.mem_append_left _ hcall)]
    cases call with
    | check reason now => simp [note]
    | record reason now => exact nomatch hcall
    | reset => simp [note]

/-- Among the calls, behind those before it, a check of the reason is held back for so many seconds,
and with nothing recorded in between the reason is checked again. -/
structure Retry (minIntervalSeconds : UInt64) (maxPerHour : UInt32) (calls before : List Call)
    (reason : Reason) (now : Instant) (left : Int) (between : List Call) (later : Instant) : Prop where
  exists_split : ∃ after,
    calls = before ++ .check reason now :: (between ++ .check reason later :: after)
  heldBack : ((behind minIntervalSeconds maxPerHour before).check reason now).1 =
    .ok (.error (.reasonInterval left))
  unrecorded : ∀ call ∈ between, call.isRecord = false

/-- To wait for as long as was told and so many seconds more is enough not to be held back for the
interval again. -/
def WaitSuffices (extra : Nat) (minIntervalSeconds : UInt64) (maxPerHour : UInt32)
    (calls : List Call) : Prop :=
  ∀ before reason now left between later,
    Retry minIntervalSeconds maxPerHour calls before reason now left between later →
    now.add? ((left + extra) * nanosPerSecond) = some later →
    ¬ HeldBack (behind minIntervalSeconds maxPerHour (before ++ .check reason now :: between))
      reason later

/-- No check is told to wait for longer than the interval. -/
def WaitInRange (minIntervalSeconds : UInt64) (maxPerHour : UInt32) (calls : List Call) : Prop :=
  ∀ before reason now left after, calls = before ++ .check reason now :: after →
    ((behind minIntervalSeconds maxPerHour before).check reason now).1 =
      .ok (.error (.reasonInterval left)) →
    0 ≤ left ∧ left ≤ minIntervalSeconds.toNat

/-- After exactly the seconds that were told the reason is held back again if and only if the last
delivery for it was not whole seconds before the first check and no reset has come between. -/
def RefusedAgain (minIntervalSeconds : UInt64) (maxPerHour : UInt32) (calls : List Call) : Prop :=
  ∀ before reason now left between later,
    Retry minIntervalSeconds maxPerHour calls before reason now left between later →
    now.add? (left * nanosPerSecond) = some later →
    (HeldBack (behind minIntervalSeconds maxPerHour (before ++ .check reason now :: between))
        reason later ↔
      .reset ∉ between ∧ ∃ last, lastFor? reason (recorded before) = some last ∧
        now.nanosSince last % nanosPerSecond ≠ 0)

section Retry

variable {minIntervalSeconds : UInt64} {maxPerHour : UInt32} {calls before between : List Call}
  {reason : Reason} {now later : Instant} {left : Int}

/-- What holds a check back is the last delivery for its reason, too recent among all that were
recorded. -/
theorem exists_last_of_reasonInterval (hinterval : minIntervalSeconds.toNat ≤ maxWindowSeconds)
    (h : ((behind minIntervalSeconds maxPerHour before).check reason now).1 =
      .ok (.error (.reasonInterval left))) :
    ∃ last, lastFor? reason (recorded before) = some last ∧
      now.nanosSince last < minIntervalSeconds.toNat * nanosPerSecond ∧
      left = (minIntervalSeconds.toNat * nanosPerSecond - now.nanosSince last) / nanosPerSecond := by
  obtain ⟨readings, -, hfollows⟩ := exists_follows minIntervalSeconds maxPerHour before
  have hlimit := (limits_behind minIntervalSeconds maxPerHour before).1
  rw [minInterval_ofLimits hinterval] at hlimit
  rw [← hlimit]
  obtain ⟨last, hlast, hanswer⟩ := of_checkPruned_eq_reasonInterval h
  exact ⟨last, (hfollows.prune now).lastFor?_of_last? hlast, hanswer⟩

/-- What has been recorded when the reason is checked again. -/
theorem Retry.recorded_eq
    (h : Retry minIntervalSeconds maxPerHour calls before reason now left between later) :
    recorded (before ++ .check reason now :: between) =
      if .reset ∈ between then [] else recorded before := by
  have hnone : ∀ call ∈ Call.check reason now :: between, call.isRecord = false :=
    List.forall_mem_cons.2 ⟨rfl, h.unrecorded⟩
  rw [recorded_append before hnone]
  simp

/-- Whoever is held back again is held back by the delivery that held the first check back. -/
theorem Retry.of_heldBack (hinterval : minIntervalSeconds.toNat ≤ maxWindowSeconds)
    (h : Retry minIntervalSeconds maxPerHour calls before reason now left between later)
    (hagain : HeldBack (behind minIntervalSeconds maxPerHour (before ++ .check reason now :: between))
      reason later) :
    .reset ∉ between ∧ ∃ last, lastFor? reason (recorded before) = some last ∧
      later.nanosSince last < minIntervalSeconds.toNat * nanosPerSecond := by
  obtain ⟨more, hmore⟩ := hagain
  obtain ⟨last, hlast, hrecent, -⟩ := exists_last_of_reasonInterval hinterval hmore
  rw [h.recorded_eq] at hlast
  by_cases hreset : .reset ∈ between
  · rw [if_pos hreset] at hlast
    exact nomatch hlast
  · rw [if_neg hreset] at hlast
    exact ⟨hreset, last, hlast, hrecent⟩

/-- Whoever comes more than a second later than was told, as measured from the last delivery, is not
held back again. -/
theorem Retry.not_heldBack (hinterval : minIntervalSeconds.toNat ≤ maxWindowSeconds)
    (h : Retry minIntervalSeconds maxPerHour calls before reason now left between later)
    (hlater : ∀ last, lastFor? reason (recorded before) = some last →
      now.nanosSince last + (left + 1) * nanosPerSecond ≤ later.nanosSince last) :
    ¬ HeldBack (behind minIntervalSeconds maxPerHour (before ++ .check reason now :: between))
      reason later := by
  intro hagain
  obtain ⟨last, hlast, -, hleft⟩ := exists_last_of_reasonInterval hinterval h.heldBack
  obtain ⟨-, last', hlast', hrecent⟩ := h.of_heldBack hinterval hagain
  obtain rfl : last = last' := Option.some.inj (hlast.symm.trans hlast')
  have hwaited := hlater last hlast
  unfold nanosPerSecond at *
  omega

theorem Retry.now_mem
    (h : Retry minIntervalSeconds maxPerHour calls before reason now left between later) :
    now ∈ calls.filterMap Call.reading? := by
  obtain ⟨after, rfl⟩ := h.exists_split
  simp [Call.reading?]

theorem Retry.last_mem
    (h : Retry minIntervalSeconds maxPerHour calls before reason now left between later)
    {last : Instant} (hlast : lastFor? reason (recorded before) = some last) :
    last ∈ calls.filterMap Call.reading? := by
  obtain ⟨after, rfl⟩ := h.exists_split
  rw [List.filterMap_append]
  exact List.mem_append_left _ (mem_readings_of_lastFor? hlast)

/-- Outside leap seconds the time from the last delivery grows by what was waited. -/
theorem Retry.nanosSince_later
    (h : Retry minIntervalSeconds maxPerHour calls before reason now left between later)
    (hleap : ∀ t ∈ calls.filterMap Call.reading?, t.isLeap = false) {span : Int}
    (hlater : now.add? span = some later) {last : Instant}
    (hlast : lastFor? reason (recorded before) = some last) :
    later.nanosSince last = now.nanosSince last + span := by
  have hnow := hleap now h.now_mem
  have hlast' := hleap last (h.last_mem hlast)
  obtain ⟨hplace, hlater'⟩ := Instant.unixNanos_of_add? hnow hlater
  rw [Instant.nanosSince_eq_sub hlater' hlast', Instant.nanosSince_eq_sub hnow hlast']
  omega

/-- On a clock that does not go back a delivery that is too recent is not forgotten. -/
theorem heldBack_of_tooRecent (hinterval : minIntervalSeconds.toNat ≤ maxWindowSeconds)
    {after : List Call}
    (hsorted : ((before ++ .check reason now :: after).filterMap Call.reading?).Pairwise (· ≤ ·))
    (hleap : ∀ t ∈ (before ++ .check reason now :: after).filterMap Call.reading?, t.isLeap = false)
    (h : TooRecent (minIntervalSeconds.toNat * nanosPerSecond) (recorded before) reason now) :
    HeldBack (behind minIntervalSeconds maxPerHour before) reason now := by
  obtain ⟨readings, hsub, hfollows⟩ := exists_follows minIntervalSeconds maxPerHour before
  obtain ⟨last, hlast, hrecent⟩ := h
  have hlimit := (limits_behind minIntervalSeconds maxPerHour before).1
  rw [minInterval_ofLimits hinterval] at hlimit
  have hreadings : (readings ++ [now]).Sublist
      ((before ++ .check reason now :: after).filterMap Call.reading?) := by
    rw [List.filterMap_append]
    exact hsub.append (by simp [Call.reading?])
  obtain ⟨n, hpos, hretention⟩ := exists_retention (inSeconds_ofLimits minIntervalSeconds maxPerHour)
  rw [minInterval_ofLimits hinterval, ← hlimit] at hretention
  have hclock := (Instant.regular_of_pairwise hpos hsorted hleap).sublist hreadings
  rw [← hretention] at hclock
  rw [← hlimit] at hrecent
  have hseconds : 0 ≤ minIntervalSeconds.toNat * nanosPerSecond ∧
      minIntervalSeconds.toNat * nanosPerSecond ≤ maxWindowSeconds * nanosPerSecond := by
    unfold nanosPerSecond
    omega
  rw [← hlimit] at hseconds
  have hfound := hfollows.last?_prune hclock hlast hrecent
  exact ⟨_, ((behind minIntervalSeconds maxPerHour before).prune now).checkPruned_of_recent
    hseconds.1 hseconds.2 hfound hrecent⟩

end Retry

/-! ## The law -/

section Law

variable {minIntervalSeconds : UInt64} (hinterval : minIntervalSeconds.toNat ≤ maxWindowSeconds)
  (maxPerHour : UInt32) (calls : List Call)

include hinterval

/-- Two leap seconds at most come between what the two checks measure. -/
theorem waitSuffices_three : WaitSuffices 3 minIntervalSeconds maxPerHour calls := by
  intro before reason now left between later h hlater
  refine h.not_heldBack hinterval fun last hlast => ?_
  obtain ⟨last', hlast', hrecent, hleft⟩ := exists_last_of_reasonInterval hinterval h.heldBack
  obtain rfl : last = last' := Option.some.inj (hlast.symm.trans hlast')
  have hpos : 0 < left + (3 : Nat) := by
    unfold nanosPerSecond at *
    omega
  obtain ⟨hplace, hleap⟩ := Instant.le_unixNanos_of_add? hpos hlater
  have hnow := now.nanosSince_le last
  have hthen : later.unixNanos - last.unixNanos ≤ later.nanosSince last := Instant.le_nanosSince hleap
  unfold nanosPerSecond at *
  omega

theorem waitSuffices_one (hleap : ∀ t ∈ calls.filterMap Call.reading?, t.isLeap = false) :
    WaitSuffices 1 minIntervalSeconds maxPerHour calls := by
  intro before reason now left between later h hlater
  refine h.not_heldBack hinterval fun last hlast => ?_
  rw [h.nanosSince_later hleap hlater hlast]
  exact Int.le_refl _

theorem waitInRange (hsorted : (calls.filterMap Call.reading?).Pairwise (· ≤ ·)) :
    WaitInRange minIntervalSeconds maxPerHour calls := by
  rintro before reason now left after rfl hanswer
  obtain ⟨last, hlast, hrecent, hleft⟩ := exists_last_of_reasonInterval hinterval hanswer
  have hahead := Instant.neg_lt_nanosSince (le_of_lastFor? hsorted rfl hlast)
  unfold nanosPerSecond at *
  omega

theorem refusedAgain (hsorted : (calls.filterMap Call.reading?).Pairwise (· ≤ ·))
    (hleap : ∀ t ∈ calls.filterMap Call.reading?, t.isLeap = false) :
    RefusedAgain minIntervalSeconds maxPerHour calls := by
  intro before reason now left between later h hlater
  obtain ⟨last, hlast, hrecent, hleft⟩ := exists_last_of_reasonInterval hinterval h.heldBack
  have hwaited := h.nanosSince_later hleap hlater hlast
  constructor
  · intro hagain
    obtain ⟨hreset, last', hlast', hrecent'⟩ := h.of_heldBack hinterval hagain
    obtain rfl : last = last' := Option.some.inj (hlast.symm.trans hlast')
    refine ⟨hreset, last, hlast, ?_⟩
    unfold nanosPerSecond at *
    omega
  · rintro ⟨hreset, last', hlast', hpart⟩
    obtain rfl : last = last' := Option.some.inj (hlast.symm.trans hlast')
    have hrecorded : lastFor? reason (recorded (before ++ .check reason now :: between)) =
        some last := by
      rw [h.recorded_eq, if_neg hreset, hlast]
    have hagain : later.nanosSince last < minIntervalSeconds.toNat * nanosPerSecond := by
      unfold nanosPerSecond at *
      omega
    obtain ⟨after, rfl⟩ := h.exists_split
    rw [← List.cons_append, ← List.append_assoc] at hsorted hleap
    exact heldBack_of_tooRecent hinterval hsorted hleap ⟨last, hrecorded, hagain⟩

/-- Three seconds more than was told are enough on every clock, and one on a clock that does not read
inside a leap second. On a clock that does not go back no wait is longer than the interval. Without
leap seconds too, the seconds that were told fall short if and only if the first check was not whole
seconds after the delivery, and no reset has come between. -/
theorem wait_of_calls :
    WaitSuffices 3 minIntervalSeconds maxPerHour calls ∧
    ((∀ t ∈ calls.filterMap Call.reading?, t.isLeap = false) →
      WaitSuffices 1 minIntervalSeconds maxPerHour calls) ∧
    ((calls.filterMap Call.reading?).Pairwise (· ≤ ·) →
      WaitInRange minIntervalSeconds maxPerHour calls ∧
      ((∀ t ∈ calls.filterMap Call.reading?, t.isLeap = false) →
        RefusedAgain minIntervalSeconds maxPerHour calls)) :=
  ⟨waitSuffices_three hinterval maxPerHour calls, waitSuffices_one hinterval maxPerHour calls,
    fun hsorted => ⟨waitInRange hinterval maxPerHour calls hsorted,
      refusedAgain hinterval maxPerHour calls hsorted⟩⟩

end Law

/-! ## Sample calls -/

/-- The instant so many half seconds after the epoch. -/
def halfSeconds (n : Int) : Instant := (Instant.ofParts? (n / 2) (n % 2 * 500000000)).getD .epoch

/-- A delivery, a check half a second later, and checks after the seconds that it was told to wait for
and after one second more. -/
def retryCalls : List Call :=
  [.record .systemHaltState (halfSeconds 0), .check .systemHaltState (halfSeconds 1),
    .check .systemHaltState (halfSeconds 119), .check .systemHaltState (halfSeconds 121)]

theorem wait_retryCalls :
    WaitSuffices 1 60 30 retryCalls ∧ WaitInRange 60 30 retryCalls ∧ RefusedAgain 60 30 retryCalls ∧
      (untilFault handle retryCalls (ofLimits 60 30)).1 =
        .ok [none, some (.error (.reasonInterval 59)), some (.error (.reasonInterval 0)),
          some (.ok ())] := by
  have hsorted : (retryCalls.filterMap Call.reading?).Pairwise (· ≤ ·) := by decide
  have hleap : ∀ now ∈ retryCalls.filterMap Call.reading?, now.isLeap = false := by decide
  have hinterval : (60 : UInt64).toNat ≤ maxWindowSeconds := by decide
  obtain ⟨-, hwait, hback⟩ := wait_of_calls hinterval 30 retryCalls
  exact ⟨hwait hleap, (hback hsorted).1, (hback hsorted).2 hleap, by decide +kernel⟩

/-- The seconds that a check is told to wait for are not enough. -/
theorem not_waitSuffices_retryCalls :
    (retryCalls.filterMap Call.reading?).Pairwise (· ≤ ·) ∧ ¬ WaitSuffices 0 60 30 retryCalls := by
  refine ⟨by decide, fun h => ?_⟩
  have hretry : Retry 60 30 retryCalls [.record .systemHaltState (halfSeconds 0)] .systemHaltState
      (halfSeconds 1) 59 [] (halfSeconds 119) :=
    ⟨⟨_, rfl⟩, by decide +kernel, fun _ h => nomatch h⟩
  have hlater : (halfSeconds 1).add? ((59 + (0 : Nat)) * nanosPerSecond) = some (halfSeconds 119) := by
    decide +kernel
  exact h _ _ _ _ _ _ hretry hlater ⟨0, by decide +kernel⟩

end Limiter

end TradeGate
