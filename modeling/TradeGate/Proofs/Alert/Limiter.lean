import Mathlib.Data.List.TakeWhile
import TradeGate.Alert.Limiter
import TradeGate.Policy.Accepted
import TradeGate.Proofs.History
import TradeGate.Proofs.Time.Span

/-!
# What the limiter knows

The limiter forgets deliveries as it goes. `Limiter.Knows` says what it still has to know of all of
them at an instant: every delivery of the last hour, and for each reason the last delivery unless
that is out of its interval. Under a clock that does not go back and does not read inside a leap
second this is kept by pruning and by recording, and it makes what is let through keep both limits,
in every hour and not only in those that the limiter looks at (`Limiter.countP_le_of_underCap`).
-/

namespace TradeGate

namespace Limiter

/-- A delivery: the reason of the alert, and when it was. -/
abbrev Delivery := Reason × Instant

/-- What the limiter knows at `now` of the deliveries so far. -/
structure Knows (limiter : Limiter) (delivered : List Delivery) (now : Instant) : Prop where
  /-- Instants outside leap seconds that do not lie ahead. -/
  past : ∀ d ∈ delivered, d.2.isLeap = false ∧ d.2.unixNanos ≤ now.unixNanos
  /-- What has been forgotten is an hour old. -/
  recent : ∃ gone, delivered.map Prod.snd = gone ++ limiter.recent ∧
    ∀ seen ∈ gone, seen.unixNanos + hour ≤ now.unixNanos
  /-- Nothing but deliveries is remembered for a reason. -/
  subset : ∀ d ∈ limiter.lastByReason, d ∈ delivered
  /-- No delivery is later than the one that is remembered for its reason, unless the interval has
  passed. -/
  last : ∀ d ∈ delivered, (∃ seen, limiter.last? d.1 = some seen ∧ d.2.unixNanos ≤ seen.unixNanos) ∨
    d.2.unixNanos + limiter.minInterval ≤ now.unixNanos

variable {limiter : Limiter} {delivered : List Delivery} {reason : Reason} {now : Instant}

theorem knows_nil (h : limiter.recent = []) (h' : limiter.lastByReason = []) (now : Instant) :
    limiter.Knows [] now where
  past _ h := nomatch h
  recent := ⟨[], by rw [h]; rfl, fun _ h => nomatch h⟩
  subset _ hd := by rw [h'] at hd; exact hd
  last _ h := nomatch h

theorem Knows.later (h : limiter.Knows delivered now) {later : Instant}
    (hlater : now.unixNanos ≤ later.unixNanos) : limiter.Knows delivered later where
  past d hd := ⟨(h.past d hd).1, Int.le_trans (h.past d hd).2 hlater⟩
  recent := by
    obtain ⟨gone, hsplit, hold⟩ := h.recent
    exact ⟨gone, hsplit, fun seen hseen => Int.le_trans (hold seen hseen) hlater⟩
  subset := h.subset
  last d hd := (h.last d hd).imp_right fun hold => Int.le_trans hold hlater

/-! ## Pruning -/

theorem minInterval_prune (limiter : Limiter) (now : Instant) :
    (limiter.prune now).minInterval = limiter.minInterval := rfl

theorem lookup_filter {p : Delivery → Bool} {entries : List Delivery} {seen : Instant}
    (h : entries.lookup reason = some seen) (hp : p (reason, seen) = true) :
    (entries.filter p).lookup reason = some seen := by
  obtain ⟨before, after, rfl, hbefore⟩ := List.lookup_eq_some_iff.1 h
  rw [List.filter_append, List.filter_cons_of_pos hp]
  exact List.lookup_eq_some_iff.2
    ⟨_, _, rfl, fun d hd => hbefore d ((List.mem_filter.1 hd).1)⟩

/-- Pruning forgets from the front what is an hour old. -/
theorem recent_prune (limiter : Limiter) (hnow : now.isLeap = false) :
    ∃ cut, limiter.recent = cut ++ (limiter.prune now).recent ∧
      ∀ seen ∈ cut, seen.isLeap = false → seen.unixNanos + hour ≤ now.unixNanos := by
  unfold prune
  dsimp only
  cases hago : now.sub? hour with
  | none => exact ⟨[], rfl, fun _ h => nomatch h⟩
  | some hourAgo =>
    refine ⟨limiter.recent.takeWhile (· ≤ hourAgo), List.takeWhile_append_dropWhile.symm, ?_⟩
    intro seen hseen hleap
    have hle : seen ≤ hourAgo := by simpa using List.mem_takeWhile_imp hseen
    have hplace := Instant.unixNanos_le_unixNanos hle hleap
    rw [(Instant.unixNanos_of_sub? hnow hago).1] at hplace
    omega

/-- Pruning forgets of a reason what is out of its interval. -/
theorem last?_prune {seen : Instant} (hnow : now.isLeap = false) (hseen : seen.isLeap = false)
    (h : limiter.last? reason = some seen) :
    (limiter.prune now).last? reason = some seen ∨
      seen.unixNanos + limiter.minInterval ≤ now.unixNanos := by
  unfold prune last?
  dsimp only
  cases hago : now.sub? (max limiter.minInterval hour) with
  | none => exact Or.inl h
  | some cutoff =>
    by_cases hcut : cutoff < seen
    · exact Or.inl (lookup_filter h (by simpa using hcut))
    · right
      have hle : seen ≤ cutoff := Int.not_lt.1 hcut
      have hplace := Instant.unixNanos_le_unixNanos hle hseen
      rw [(Instant.unixNanos_of_sub? hnow hago).1] at hplace
      omega

theorem lastByReason_prune_subset (limiter : Limiter) (now : Instant) :
    ∀ d ∈ (limiter.prune now).lastByReason, d ∈ limiter.lastByReason := by
  unfold prune
  dsimp only
  cases now.sub? (max limiter.minInterval hour) with
  | none => exact fun d hd => hd
  | some cutoff => exact fun d hd => (List.mem_filter.1 hd).1

theorem mem_of_last? {seen : Instant} (h : limiter.last? reason = some seen) :
    (reason, seen) ∈ limiter.lastByReason := by
  obtain ⟨before, after, hsplit, _⟩ := List.lookup_eq_some_iff.1 h
  rw [hsplit]
  exact List.mem_append_right _ List.mem_cons_self

theorem Knows.prune (h : limiter.Knows delivered now) (hnow : now.isLeap = false) :
    (limiter.prune now).Knows delivered now where
  past := h.past
  recent := by
    obtain ⟨gone, hsplit, hold⟩ := h.recent
    obtain ⟨cut, hcut, hcutOld⟩ := limiter.recent_prune hnow
    refine ⟨gone ++ cut, by rw [hsplit, hcut, List.append_assoc], fun seen hseen => ?_⟩
    rcases List.mem_append.1 hseen with hseen | hseen
    · exact hold seen hseen
    · have hmem : seen ∈ delivered.map Prod.snd := by
        rw [hsplit, hcut]
        simp [hseen]
      obtain ⟨d, hd, rfl⟩ := List.mem_map.1 hmem
      exact hcutOld _ hseen (h.past d hd).1
  subset d hd := h.subset d (limiter.lastByReason_prune_subset now d hd)
  last d hd := by
    rcases h.last d hd with ⟨seen, hlast, hle⟩ | hold
    · -- what is forgotten of the reason is out of its interval, and so is all before it
      have hseen : seen.isLeap = false := (h.past _ (h.subset _ (mem_of_last? hlast))).1
      rcases last?_prune hnow hseen hlast with hkept | hold
      · exact Or.inl ⟨seen, hkept, hle⟩
      · exact Or.inr (by rw [minInterval_prune]; omega)
    · exact Or.inr hold

/-! ## Recording -/

theorem last?_record_self (limiter : Limiter) (reason : Reason) (now : Instant) :
    (limiter.record reason now).last? reason = some now := by
  unfold record last?
  exact List.lookup_cons_self

theorem last?_record_of_ne (limiter : Limiter) {reason other : Reason} (now : Instant)
    {seen : Instant} (hne : other ≠ reason) (h : limiter.last? other = some seen) :
    (limiter.record reason now).last? other = some seen := by
  unfold record last?
  rw [List.lookup_cons, beq_false_of_ne hne]
  exact lookup_filter h (by simpa using hne)

theorem Knows.record (h : limiter.Knows delivered now) (hnow : now.isLeap = false)
    (reason : Reason) : (limiter.record reason now).Knows (delivered ++ [(reason, now)]) now where
  past := by
    rw [List.forall_mem_append, List.forall_mem_singleton]
    exact ⟨h.past, hnow, Int.le_refl _⟩
  recent := by
    obtain ⟨gone, hsplit, hold⟩ := h.recent
    refine ⟨gone, ?_, hold⟩
    rw [List.map_append, hsplit, List.append_assoc]
    rfl
  subset d hd := by
    rcases List.mem_cons.1 hd with rfl | hd
    · simp
    · exact List.mem_append_left _ (h.subset d ((List.mem_filter.1 hd).1))
  last := by
    rw [List.forall_mem_append, List.forall_mem_singleton]
    refine ⟨fun d hd => ?_, Or.inl ⟨now, last?_record_self _ _ _, Int.le_refl _⟩⟩
    by_cases hsame : d.1 = reason
    · exact Or.inl ⟨now, hsame ▸ last?_record_self _ _ _, (h.past d hd).2⟩
    · exact (h.last d hd).imp_left fun ⟨seen, hlast, hle⟩ =>
        ⟨seen, limiter.last?_record_of_ne now hsame hlast, hle⟩

/-! ## Checking -/

/-- What passes the check is under the cap and out of the interval of what is remembered. -/
theorem checkPruned_eq_ok (h : limiter.checkPruned reason now = .ok (.ok ())) :
    limiter.recent.length < limiter.maxPerHour.toNat ∧
      ∀ seen, limiter.last? reason = some seen → limiter.minInterval ≤ now.nanosSince seen := by
  have hcap : limiter.checkCap = .ok () → limiter.recent.length < limiter.maxPerHour.toNat := by
    unfold checkCap
    intro hcap
    split at hcap
    · exact nomatch hcap
    · omega
  unfold checkPruned at h
  cases hlast : limiter.last? reason with
  | none =>
    rw [hlast] at h
    exact ⟨hcap (Except.ok.inj h), fun _ h => nomatch h⟩
  | some last =>
    rw [hlast] at h
    dsimp only at h
    split at h
    · unfold spanSub at h
      split at h <;> exact nomatch h
    · rename_i hout
      refine ⟨hcap (Except.ok.inj h), fun seen hseen => ?_⟩
      rw [← Option.some.inj hseen]
      omega

/-- The remaining time can be told, whatever the clock does, if the interval is one that a policy
may have. -/
theorem exists_checkPruned (limiter : Limiter) (hinterval : 0 ≤ limiter.minInterval)
    (hinterval' : limiter.minInterval ≤ maxWindowSeconds * nanosPerSecond) (reason : Reason)
    (now : Instant) : ∃ answer, limiter.checkPruned reason now = .ok answer := by
  unfold checkPruned
  cases limiter.last? reason with
  | none => exact ⟨_, rfl⟩
  | some last =>
    have hsince := Instant.nanosSince_mem now last
    have hfits : Instant.longestSpan + maxWindowSeconds * nanosPerSecond ≤ maxSpan := by decide
    dsimp only
    have hleft : -maxSpan ≤ limiter.minInterval - now.nanosSince last ∧
        limiter.minInterval - now.nanosSince last ≤ maxSpan := by omega
    unfold spanSub
    rw [if_pos hleft]
    split <;> exact ⟨_, rfl⟩

/-! ## Counting -/

/-- At each delivery fewer than the cap were less than an hour old. -/
def UnderCap (cap : Nat) (delivered : List Delivery) : Prop :=
  ∀ before d after, delivered = before ++ d :: after →
    (before.countP fun e => d.2.unixNanos < e.2.unixNanos + hour) < cap

/-- Deliveries for one reason keep the interval. -/
def Spaced (interval : Int) (delivered : List Delivery) : Prop :=
  delivered.Pairwise fun earlier later =>
    earlier.1 = later.1 → interval ≤ later.2.nanosSince earlier.2

/-- A delivery that passes the check comes after fewer than the cap in the last hour, and after the
interval of its reason. -/
theorem Knows.of_checkPruned (h : limiter.Knows delivered now) (hnow : now.isLeap = false)
    (hcheck : limiter.checkPruned reason now = .ok (.ok ())) :
    (delivered.countP fun e => now.unixNanos < e.2.unixNanos + hour) < limiter.maxPerHour.toNat ∧
      ∀ d ∈ delivered, d.1 = reason → limiter.minInterval ≤ now.nanosSince d.2 := by
  obtain ⟨hcap, hlast⟩ := checkPruned_eq_ok hcheck
  constructor
  · obtain ⟨gone, hsplit, hold⟩ := h.recent
    have hgone : gone.countP (fun seen => now.unixNanos < seen.unixNanos + hour) = 0 := by
      rw [List.countP_eq_zero]
      intro seen hseen
      have := hold seen hseen
      simp only [decide_eq_true_eq]
      omega
    calc delivered.countP (fun e => now.unixNanos < e.2.unixNanos + hour)
        = (delivered.map Prod.snd).countP fun seen => now.unixNanos < seen.unixNanos + hour := by
          rw [List.countP_map]
          rfl
      _ = limiter.recent.countP fun seen => now.unixNanos < seen.unixNanos + hour := by
          rw [hsplit, List.countP_append, hgone, Nat.zero_add]
      _ ≤ limiter.recent.length := List.countP_le_length
      _ < limiter.maxPerHour.toNat := hcap
  · rintro d hd rfl
    rw [Instant.nanosSince_eq_sub hnow (h.past d hd).1]
    rcases h.last d hd with ⟨seen, hseen, hle⟩ | hold
    · have hin := hlast seen hseen
      have hleap : seen.isLeap = false := (h.past _ (h.subset _ (mem_of_last? hseen))).1
      rw [Instant.nanosSince_eq_sub hnow hleap] at hin
      omega
    · omega

theorem UnderCap.append_singleton {cap : Nat} {d : Delivery} (h : UnderCap cap delivered)
    (hd : (delivered.countP fun e => d.2.unixNanos < e.2.unixNanos + hour) < cap) :
    UnderCap cap (delivered ++ [d]) :=
  History.forall_split_append_singleton h hd

theorem Spaced.append_singleton {interval : Int} {d : Delivery} (h : Spaced interval delivered)
    (hd : ∀ e ∈ delivered, e.1 = d.1 → interval ≤ d.2.nanosSince e.2) :
    Spaced interval (delivered ++ [d]) := by
  unfold Spaced
  rw [List.pairwise_append]
  refine ⟨h, List.pairwise_singleton _ _, fun e he d' hd' => ?_⟩
  rw [List.mem_singleton.1 hd']
  exact hd e he

/-- The deliveries so far keep both limits, and the limiter knows of them what it has to. -/
structure Keeps (limiter : Limiter) (delivered : List Delivery) (now : Instant) : Prop where
  knows : limiter.Knows delivered now
  underCap : UnderCap limiter.maxPerHour.toNat delivered
  spaced : Spaced limiter.minInterval delivered

theorem keeps_nil (h : limiter.recent = []) (h' : limiter.lastByReason = []) (now : Instant) :
    limiter.Keeps [] now where
  knows := knows_nil h h' now
  underCap before d after hsplit := by simp at hsplit
  spaced := List.Pairwise.nil

theorem Keeps.later (h : limiter.Keeps delivered now) {later : Instant}
    (hlater : now.unixNanos ≤ later.unixNanos) : limiter.Keeps delivered later :=
  ⟨h.knows.later hlater, h.underCap, h.spaced⟩

theorem Keeps.prune (h : limiter.Keeps delivered now) (hnow : now.isLeap = false) :
    (limiter.prune now).Keeps delivered now :=
  ⟨h.knows.prune hnow, h.underCap, h.spaced⟩

theorem Keeps.record (h : limiter.Keeps delivered now) (hnow : now.isLeap = false)
    (hcheck : limiter.checkPruned reason now = .ok (.ok ())) :
    (limiter.record reason now).Keeps (delivered ++ [(reason, now)]) now := by
  obtain ⟨hcap, hinterval⟩ := h.knows.of_checkPruned hnow hcheck
  exact ⟨h.knows.record hnow reason, h.underCap.append_singleton hcap,
    h.spaced.append_singleton hinterval⟩

/-- If each delivery finds fewer than the cap in the hour before it, then every stretch of less than
an hour has at most that many, wherever it lies. -/
theorem countP_le_of_underCap {cap : Nat} (within : Int → Prop) [DecidablePred within]
    (hwithin : ∀ x y, within x → within y → y < x + hour) (h : UnderCap cap delivered) :
    (delivered.countP fun d => within d.2.unixNanos) ≤ cap := by
  induction delivered using List.reverseRecOn with
  | nil => exact Nat.zero_le _
  | append_singleton delivered d ih =>
    have hbefore : UnderCap cap delivered := fun before e after hsplit =>
      h before e (after ++ [d]) (by rw [hsplit, List.append_assoc, List.cons_append])
    rw [List.countP_append, List.countP_singleton]
    by_cases hd : within d.2.unixNanos
    · -- all that share the stretch with the new delivery lie in the hour before it
      have hle : (delivered.countP fun e => within e.2.unixNanos) ≤
          delivered.countP fun e => d.2.unixNanos < e.2.unixNanos + hour := by
        refine List.countP_mono_left fun e _ he => ?_
        simp only [decide_eq_true_eq] at he ⊢
        exact hwithin _ _ he hd
      have hlt := h delivered d [] rfl
      rw [if_pos (by simpa using hd)]
      omega
    · rw [if_neg (by simpa using hd)]
      exact ih hbefore

end Limiter

end TradeGate
