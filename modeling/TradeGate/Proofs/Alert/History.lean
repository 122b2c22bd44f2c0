import TradeGate.Proofs.Alert.Delivery

/-!
# The limiter answers from all deliveries

A limiter forgets, but a check of it is answered as from everything that was recorded since the last
reset (`Limiter.FromAll`): whether the last delivery for the reason is too recent, and failing that
whether the last hour has had its share. What it forgets for a reason is kept for an hour even where
the interval is shorter, and what it counts is kept for an hour even where the interval is longer.
Neither shows, on every clock that is regular for the two spans (`Limiter.fromAll_of_clock`).
-/

namespace TradeGate

open History (stateBehind)
open Instant (CutsOff Regular hourBeforeLeap withinLeap afterLeap)

namespace Limiter

/-! ## Calls -/

/-- What a check answers. -/
abbrev Answer := Except SpanFault (Except LimitExceeded Unit)

/-- A call of the limiter. -/
inductive Call where
  | check (reason : Reason) (now : Instant)
  | record (reason : Reason) (now : Instant)
  | reset
  deriving DecidableEq

/-- Carries out a call, and answers it if it is a check. -/
def handle : Call → Limiter → Except SpanFault (Option (Except LimitExceeded Unit)) × Limiter
  | .check reason now, limiter =>
    ((limiter.check reason now).1.map some, (limiter.check reason now).2)
  | .record reason now, limiter => (.ok none, limiter.record reason now)
  | .reset, limiter => (.ok none, limiter.reset)

/-- The reading of the clock at a call. -/
def Call.reading? : Call → Option Instant
  | .check _ now => some now
  | .record _ now => some now
  | .reset => none

/-- The limiter behind calls. -/
def behind (minIntervalSeconds : UInt64) (maxPerHour : UInt32) (calls : List Call) : Limiter :=
  stateBehind handle (ofLimits minIntervalSeconds maxPerHour) calls

/-- What a call adds to the deliveries that were recorded since the last reset. -/
def note (records : List Delivery) : Call → List Delivery
  | .check _ _ => records
  | .record reason now => records ++ [(reason, now)]
  | .reset => []

/-- All deliveries that were recorded since the last reset. -/
def recorded (calls : List Call) : List Delivery := calls.foldl note []

variable {minIntervalSeconds : UInt64} {maxPerHour : UInt32}

theorem behind_append_singleton (minIntervalSeconds : UInt64) (maxPerHour : UInt32)
    (calls : List Call) (call : Call) :
    behind minIntervalSeconds maxPerHour (calls ++ [call]) =
      (handle call (behind minIntervalSeconds maxPerHour calls)).2 :=
  History.stateBehind_append_singleton handle _ _ _

theorem recorded_append_singleton (calls : List Call) (call : Call) :
    recorded (calls ++ [call]) = note (recorded calls) call := by
  unfold recorded
  rw [List.foldl_append, List.foldl_cons, List.foldl_nil]

/-! ## The answers from all deliveries -/

/-- The last delivery for a reason. -/
def lastFor? (reason : Reason) (records : List Delivery) : Option Instant :=
  records.reverse.lookup reason

/-- The number of deliveries less than an hour before `now`. -/
def countLastHour (now : Instant) (records : List Delivery) : Nat :=
  records.countP fun d => now.nanosSince d.2 < hour

/-- The last delivery for the reason is less than the interval before `now`. -/
def TooRecent (interval : Int) (records : List Delivery) (reason : Reason) (now : Instant) : Prop :=
  ∃ last, lastFor? reason records = some last ∧ now.nanosSince last < interval

/-- A check is answered from all deliveries: by the whole seconds that are left of the interval if the
last delivery for the reason is too recent, else by the cap if the last hour has had that many. What
is left to count are the deliveries of the last hour. -/
structure AnswersFromAll (interval : Int) (maxPerHour : UInt32) (records : List Delivery)
    (reason : Reason) (now : Instant) (answered : Answer × Limiter) : Prop where
  interval_iff : ∀ left, answered.1 = .ok (.error (.reasonInterval left)) ↔
    ∃ last, lastFor? reason records = some last ∧ now.nanosSince last < interval ∧
      left = (interval - now.nanosSince last) / nanosPerSecond
  cap_iff : ∀ limit, answered.1 = .ok (.error (.hourlyCap limit)) ↔
    ¬ TooRecent interval records reason now ∧ maxPerHour.toNat ≤ countLastHour now records ∧
      limit = maxPerHour
  ok_iff : answered.1 = .ok (.ok ()) ↔
    ¬ TooRecent interval records reason now ∧ countLastHour now records < maxPerHour.toNat
  length_recent : answered.2.recent.length = countLastHour now records

/-- Every check among the calls is answered from all deliveries since the last reset. -/
def FromAll (minIntervalSeconds : UInt64) (maxPerHour : UInt32) (calls : List Call) : Prop :=
  ∀ before reason now after, calls = before ++ .check reason now :: after →
    AnswersFromAll (minIntervalSeconds.toNat * nanosPerSecond) maxPerHour (recorded before) reason now
      ((behind minIntervalSeconds maxPerHour before).check reason now)

theorem lastFor?_append_singleton (reason : Reason) (records : List Delivery) (d : Delivery) :
    lastFor? reason (records ++ [d]) =
      if d.1 = reason then some d.2 else lastFor? reason records := by
  unfold lastFor?
  rw [List.reverse_append, List.reverse_singleton, List.singleton_append, List.lookup_cons]
  by_cases h : d.1 = reason
  · subst h
    simp
  · rw [if_neg h, beq_false_of_ne (Ne.symm h)]

theorem mem_of_lastFor? {reason : Reason} {records : List Delivery} {last : Instant}
    (h : lastFor? reason records = some last) : (reason, last) ∈ records := by
  unfold lastFor? at h
  obtain ⟨before, after, hsplit, -⟩ := List.lookup_eq_some_iff.1 h
  rw [← List.mem_reverse, hsplit]
  exact List.mem_append_right _ List.mem_cons_self

/-! ## What is forgotten -/

/-- A look back of the span at one of the readings has cut off `seen`. -/
def GoneBy (span : Int) (readings : List Instant) (seen : Instant) : Prop :=
  ∃ now, [seen, now].Sublist readings ∧ CutsOff span now seen

/-- The limiter knows of all deliveries, but for those that a look back has cut off. -/
structure Follows (limiter : Limiter) (records : List Delivery) (readings : List Instant) : Prop where
  atReadings : (records.map Prod.snd).Sublist readings
  recent : ∃ gone, records.map Prod.snd = gone ++ limiter.recent ∧
    ∀ seen ∈ gone, GoneBy hour readings seen
  remembered : ∀ d ∈ limiter.lastByReason, lastFor? d.1 records = some d.2
  forgotten : ∀ reason last, lastFor? reason records = some last →
    (reason, last) ∈ limiter.lastByReason ∨ GoneBy (max limiter.minInterval hour) readings last

variable {limiter : Limiter} {records : List Delivery} {readings : List Instant}

theorem GoneBy.append {span : Int} {seen : Instant} (h : GoneBy span readings seen)
    (now : Instant) : GoneBy span (readings ++ [now]) seen := by
  obtain ⟨reading, hpair, hcut⟩ := h
  exact ⟨reading, hpair.trans (List.sublist_append_left _ _), hcut⟩

theorem goneBy_append {span : Int} {seen now : Instant} (h : seen ∈ readings)
    (hcut : CutsOff span now seen) : GoneBy span (readings ++ [now]) seen :=
  ⟨now, (List.singleton_sublist.2 h).append (List.Sublist.refl [now]), hcut⟩

/-- Pruning cuts off deliveries at the front, until one that is not cut off. -/
theorem exists_cut (limiter : Limiter) (now : Instant) :
    ∃ cut, limiter.recent = cut ++ (limiter.prune now).recent ∧
      (∀ seen ∈ cut, CutsOff hour now seen) ∧
      ∀ first rest, (limiter.prune now).recent = first :: rest → ¬ CutsOff hour now first := by
  unfold prune CutsOff
  dsimp only
  cases hago : now.sub? hour with
  | none => exact ⟨[], rfl, by simp, by simp⟩
  | some hourAgo =>
    refine ⟨limiter.recent.takeWhile (· ≤ hourAgo), List.takeWhile_append_dropWhile.symm,
      fun seen hseen => ⟨hourAgo, rfl, by simpa using List.mem_takeWhile_imp hseen⟩, ?_⟩
    rintro first rest hrest ⟨cutoff, hcutoff, hle⟩
    rw [← Option.some.inj hcutoff] at hle
    have hfirst := List.head?_dropWhile_not (· ≤ hourAgo) limiter.recent
    dsimp only at hrest
    rw [hrest] at hfirst
    simp [hle] at hfirst

/-- Pruning forgets for a reason what is cut off. -/
theorem mem_lastByReason_prune {d : Delivery} {now : Instant} :
    d ∈ (limiter.prune now).lastByReason ↔
      d ∈ limiter.lastByReason ∧ ¬ CutsOff (max limiter.minInterval hour) now d.2 := by
  unfold prune CutsOff
  dsimp only
  cases now.sub? (max limiter.minInterval hour) with
  | none => simp
  | some cutoff =>
    have hnot : ¬ d.2 ≤ cutoff ↔ cutoff < d.2 := Int.not_le
    simp [hnot]

theorem Follows.prune (h : limiter.Follows records readings) (now : Instant) :
    (limiter.prune now).Follows records (readings ++ [now]) where
  atReadings := h.atReadings.trans (List.sublist_append_left _ _)
  recent := by
    obtain ⟨gone, hsplit, hgone⟩ := h.recent
    obtain ⟨cut, hcut, hcutOff, -⟩ := limiter.exists_cut now
    refine ⟨gone ++ cut, by rw [hsplit, hcut, List.append_assoc], fun seen hseen => ?_⟩
    rcases List.mem_append.1 hseen with hseen | hseen
    · exact (hgone seen hseen).append now
    · apply goneBy_append (h.atReadings.subset ?_) (hcutOff seen hseen)
      rw [hsplit, hcut]
      simp [hseen]
  remembered d hd := h.remembered d (mem_lastByReason_prune.1 hd).1
  forgotten reason last hlast := by
    rcases h.forgotten reason last hlast with hmem | hgone
    · by_cases hcut : CutsOff (max limiter.minInterval hour) now last
      · right
        apply goneBy_append (h.atReadings.subset ?_) hcut
        exact List.mem_map_of_mem (mem_of_lastFor? hlast)
      · exact Or.inl (mem_lastByReason_prune.2 ⟨hmem, hcut⟩)
    · exact Or.inr (hgone.append now)

theorem Follows.record (h : limiter.Follows records readings) (reason : Reason) (now : Instant) :
    (limiter.record reason now).Follows (records ++ [(reason, now)]) (readings ++ [now]) where
  atReadings := by
    rw [List.map_append]
    exact h.atReadings.append (List.Sublist.refl [now])
  recent := by
    obtain ⟨gone, hsplit, hgone⟩ := h.recent
    refine ⟨gone, ?_, fun seen hseen => (hgone seen hseen).append now⟩
    rw [List.map_append, hsplit, List.append_assoc]
    rfl
  remembered d hd := by
    rw [lastFor?_append_singleton]
    rcases List.mem_cons.1 hd with rfl | hd
    · exact if_pos rfl
    · obtain ⟨hmem, hne⟩ := List.mem_filter.1 hd
      rw [if_neg fun heq => (of_decide_eq_true hne) heq.symm]
      exact h.remembered d hmem
  forgotten other last hlast := by
    rw [lastFor?_append_singleton] at hlast
    by_cases hsame : reason = other
    · rw [if_pos hsame] at hlast
      left
      rw [← Option.some.inj hlast, ← hsame]
      exact List.mem_cons_self
    · rw [if_neg hsame] at hlast
      refine (h.forgotten other last hlast).imp (fun hmem => ?_) fun hgone => hgone.append now
      apply List.mem_cons_of_mem
      exact List.mem_filter.2 ⟨hmem, decide_eq_true fun heq => hsame heq.symm⟩

theorem follows_nil (h : limiter.recent = []) (h' : limiter.lastByReason = []) :
    limiter.Follows [] [] where
  atReadings := List.Sublist.refl []
  recent := ⟨[], by rw [h]; rfl, fun _ h => nomatch h⟩
  remembered d hd := by
    rw [h'] at hd
    exact nomatch hd
  forgotten _ _ hlast := nomatch hlast

theorem Follows.lastFor?_of_last? (h : limiter.Follows records readings) {reason : Reason}
    {seen : Instant} (hseen : limiter.last? reason = some seen) :
    lastFor? reason records = some seen :=
  h.remembered _ (mem_of_last? hseen)

theorem Follows.last?_of_mem (h : limiter.Follows records readings) {reason : Reason}
    {last : Instant} (hmem : (reason, last) ∈ limiter.lastByReason) :
    limiter.last? reason = some last := by
  cases hfound : limiter.last? reason with
  | none =>
    unfold last? at hfound
    have hne := List.lookup_eq_none_iff.1 hfound _ hmem
    simp at hne
  | some seen => rw [← h.lastFor?_of_last? hfound, h.remembered _ hmem]

/-- However the calls went, the readings since the last reset account for what is forgotten. -/
theorem exists_follows (minIntervalSeconds : UInt64) (maxPerHour : UInt32) (calls : List Call) :
    ∃ readings, readings.Sublist (calls.filterMap Call.reading?) ∧
      (behind minIntervalSeconds maxPerHour calls).Follows (recorded calls) readings := by
  induction calls using List.reverseRecOn with
  | nil => exact ⟨[], List.Sublist.refl [], follows_nil rfl rfl⟩
  | append_singleton calls call ih =>
    obtain ⟨readings, hsub, hfollows⟩ := ih
    rw [behind_append_singleton, recorded_append_singleton, List.filterMap_append]
    cases call with
    | check reason now =>
      exact ⟨readings ++ [now], hsub.append (List.Sublist.refl [now]), hfollows.prune now⟩
    | record reason now =>
      exact ⟨readings ++ [now], hsub.append (List.Sublist.refl [now]), hfollows.record reason now⟩
    | reset => exact ⟨[], List.nil_sublist _, follows_nil rfl rfl⟩

/-- What was recorded last for a reason was recorded at a reading of the clock. -/
theorem mem_readings_of_lastFor? {calls : List Call} {reason : Reason} {last : Instant}
    (h : lastFor? reason (recorded calls) = some last) : last ∈ calls.filterMap Call.reading? := by
  obtain ⟨readings, hsub, hfollows⟩ := exists_follows 0 0 calls
  have hat := hfollows.atReadings.subset (List.mem_map_of_mem (mem_of_lastFor? h))
  exact hsub.subset hat

/-- What was recorded last for a reason does not lie ahead of a later call on a clock that does not go
back. -/
theorem le_of_lastFor? {before after : List Call} {call : Call} {reason : Reason}
    {last now : Instant} (hsorted : ((before ++ call :: after).filterMap Call.reading?).Pairwise (· ≤ ·))
    (hnow : call.reading? = some now) (h : lastFor? reason (recorded before) = some last) :
    last ≤ now := by
  rw [List.filterMap_append, List.filterMap_cons_some hnow, List.pairwise_append] at hsorted
  exact hsorted.2.2 last (mem_readings_of_lastFor? h) now List.mem_cons_self

/-- No call changes the limits. -/
theorem limits_behind (minIntervalSeconds : UInt64) (maxPerHour : UInt32) (calls : List Call) :
    (behind minIntervalSeconds maxPerHour calls).minInterval =
        (ofLimits minIntervalSeconds maxPerHour).minInterval ∧
      (behind minIntervalSeconds maxPerHour calls).maxPerHour = maxPerHour := by
  induction calls using List.reverseRecOn with
  | nil => exact ⟨rfl, rfl⟩
  | append_singleton calls call ih =>
    rw [behind_append_singleton]
    cases call <;> exact ih

/-! ## Regular clocks -/

section Regular

variable {reason : Reason} {now : Instant}

/-- What has been cut off stays as old as the span. -/
theorem GoneBy.old {span : Int} {seen : Instant} (h : GoneBy span readings seen)
    (hclock : Regular span (readings ++ [now])) : span ≤ now.nanosSince seen := by
  obtain ⟨reading, hpair, hcut⟩ := h
  have hold := (hclock.cutsOff_iff _ _ (hpair.trans (List.sublist_append_left _ _))).1 hcut
  exact hclock.stays _ _ _ (hpair.append (List.Sublist.refl [now])) hold

/-- What is cut off is old, and nothing else is. -/
theorem cutsOff_iff_of_mem {span : Int} {seen : Instant} (h : seen ∈ readings)
    (hclock : Regular span (readings ++ [now])) :
    CutsOff span now seen ↔ span ≤ now.nanosSince seen :=
  hclock.cutsOff_iff _ _ ((List.singleton_sublist.2 h).append (List.Sublist.refl [now]))

/-- Pruning keeps the deliveries of the last hour: the first one that is kept is not cut off, and so
those behind it are not that old. -/
theorem Follows.exists_old (h : limiter.Follows records readings)
    (hclock : Regular hour (readings ++ [now])) :
    ∃ old, records.map Prod.snd = old ++ (limiter.prune now).recent ∧
      (∀ seen ∈ old, hour ≤ now.nanosSince seen) ∧
      ∀ seen ∈ (limiter.prune now).recent, now.nanosSince seen < hour := by
  obtain ⟨gone, hsplit, hgone⟩ := h.recent
  obtain ⟨cut, hcut, hcutOff, hfirst⟩ := limiter.exists_cut now
  have hat := h.atReadings
  rw [hcut, ← List.append_assoc] at hsplit
  rw [hsplit] at hat
  refine ⟨gone ++ cut, hsplit, fun seen hseen => ?_, fun seen hseen => ?_⟩
  · have hmem := hat.subset (List.mem_append_left _ hseen)
    rcases List.mem_append.1 hseen with hseen | hseen
    · exact (hgone seen hseen).old hclock
    · exact (cutsOff_iff_of_mem hmem hclock).1 (hcutOff seen hseen)
  · have hkept := (List.sublist_append_right (gone ++ cut) _).trans hat
    generalize (limiter.prune now).recent = kept at hseen hkept hfirst
    cases kept with
    | nil => exact nomatch hseen
    | cons first rest =>
      have hyoung : ¬ hour ≤ now.nanosSince first := fun hold =>
        hfirst first rest rfl ((cutsOff_iff_of_mem (hkept.subset (by simp)) hclock).2 hold)
      rcases List.mem_cons.1 hseen with rfl | hseen
      · exact Int.not_le.1 hyoung
      · have hpair : [first, seen].Sublist readings :=
          ((List.singleton_sublist.2 hseen).cons_cons first).trans hkept
        exact Int.not_le.1 fun hold =>
          hyoung (hclock.before _ _ _ (hpair.append (List.Sublist.refl [now])) hold)

/-- What is left to count are the deliveries of the last hour. -/
theorem Follows.length_recent_prune (h : limiter.Follows records readings)
    (hclock : Regular hour (readings ++ [now])) :
    (limiter.prune now).recent.length = countLastHour now records := by
  obtain ⟨old, hsplit, hold, hyoung⟩ := h.exists_old hclock
  have hcount : countLastHour now records =
      (records.map Prod.snd).countP fun seen => now.nanosSince seen < hour := by
    rw [List.countP_map]
    rfl
  have hnone : old.countP (fun seen => now.nanosSince seen < hour) = 0 := by
    refine List.countP_eq_zero.2 fun seen hseen => ?_
    simpa using hold seen hseen
  rw [hcount, hsplit, List.countP_append, hnone, Nat.zero_add]
  refine (List.countP_eq_length.2 fun seen hseen => ?_).symm
  simpa using hyoung seen hseen

/-- A delivery that is too recent for another one is remembered: what is forgotten for a reason is out
of its interval. -/
theorem Follows.last?_prune (h : limiter.Follows records readings)
    (hclock : Regular (max limiter.minInterval hour) (readings ++ [now])) {last : Instant}
    (hlast : lastFor? reason records = some last) (hrecent : now.nanosSince last < limiter.minInterval) :
    (limiter.prune now).last? reason = some last := by
  have hyoung : ¬ max limiter.minInterval hour ≤ now.nanosSince last := by omega
  have hat : last ∈ readings :=
    h.atReadings.subset (List.mem_map_of_mem (mem_of_lastFor? hlast))
  have hmem : (reason, last) ∈ (limiter.prune now).lastByReason := by
    rw [mem_lastByReason_prune]
    constructor
    · exact (h.forgotten reason last hlast).resolve_right fun hgone => hyoung (hgone.old hclock)
    · exact fun hcut => hyoung ((cutsOff_iff_of_mem hat hclock).1 hcut)
  exact (h.prune now).last?_of_mem hmem

theorem checkPruned_of_recent (limiter : Limiter) (hinterval : 0 ≤ limiter.minInterval)
    (hinterval' : limiter.minInterval ≤ maxWindowSeconds * nanosPerSecond) {last : Instant}
    (hlast : limiter.last? reason = some last) (hrecent : now.nanosSince last < limiter.minInterval) :
    limiter.checkPruned reason now = .ok (.error
      (.reasonInterval ((limiter.minInterval - now.nanosSince last) / nanosPerSecond))) := by
  obtain ⟨answer, hanswer⟩ := limiter.exists_checkPruned hinterval hinterval' reason now
  rw [← Int.tdiv_eq_ediv_of_nonneg (by omega)]
  unfold checkPruned at hanswer ⊢
  rw [hlast] at hanswer ⊢
  dsimp only at hanswer ⊢
  rw [if_pos hrecent] at hanswer ⊢
  unfold spanSub at hanswer ⊢
  split at hanswer
  · rename_i hfits
    rw [if_pos hfits]
    rfl
  · exact nomatch hanswer

theorem checkPruned_of_not_recent
    (h : ∀ last, limiter.last? reason = some last → limiter.minInterval ≤ now.nanosSince last) :
    limiter.checkPruned reason now = .ok limiter.checkCap := by
  unfold checkPruned
  cases hlast : limiter.last? reason with
  | none => rfl
  | some last => exact if_neg (Int.not_lt.2 (h last hlast))

/-- On a clock that is regular for both spans the limiter answers as if it had forgotten nothing. -/
theorem Follows.answersFromAll (h : limiter.Follows records readings)
    (hinterval : 0 ≤ limiter.minInterval)
    (hinterval' : limiter.minInterval ≤ maxWindowSeconds * nanosPerSecond)
    (hhour : Regular hour (readings ++ [now]))
    (hretention : Regular (max limiter.minInterval hour) (readings ++ [now])) :
    AnswersFromAll limiter.minInterval limiter.maxPerHour records reason now
      (limiter.check reason now) := by
  have hlength := h.length_recent_prune hhour
  by_cases hrecent : TooRecent limiter.minInterval records reason now
  · have hwhen := hrecent
    obtain ⟨last, hlast, hlt⟩ := hwhen
    have hfound := h.last?_prune hretention hlast hlt
    have hanswer : (limiter.check reason now).1 = .ok (.error
        (.reasonInterval ((limiter.minInterval - now.nanosSince last) / nanosPerSecond))) :=
      (limiter.prune now).checkPruned_of_recent hinterval hinterval' hfound hlt
    refine ⟨fun left => ?_, fun limit => ?_, ?_, hlength⟩
    · rw [hanswer, hlast]
      simp [hlt, eq_comm]
    · simp [hanswer, hrecent]
    · simp [hanswer, hrecent]
  · have hanswer : (limiter.check reason now).1 = .ok (limiter.prune now).checkCap := by
      refine checkPruned_of_not_recent fun last hlast => Int.not_lt.1 fun hlt => hrecent ?_
      exact ⟨last, (h.prune now).lastFor?_of_last? hlast, hlt⟩
    unfold checkCap at hanswer
    rw [hlength] at hanswer
    have hnot : ∀ left, ¬ ∃ last, lastFor? reason records = some last ∧
        now.nanosSince last < limiter.minInterval ∧
        left = (limiter.minInterval - now.nanosSince last) / nanosPerSecond := by
      rintro left ⟨last, hlast, hlt, -⟩
      exact hrecent ⟨last, hlast, hlt⟩
    by_cases hcap : limiter.maxPerHour.toNat ≤ countLastHour now records
    · have hanswer' : (limiter.check reason now).1 = .ok (.error (.hourlyCap limiter.maxPerHour)) :=
        hanswer.trans (congrArg _ (if_pos hcap))
      refine ⟨fun left => ?_, fun limit => ?_, ?_, hlength⟩
      · simp [hanswer', hnot left]
      · simp [hanswer', hrecent, hcap, eq_comm]
      · simp [hanswer', Nat.not_lt.2 hcap]
    · have hanswer' : (limiter.check reason now).1 = .ok (.ok ()) :=
        hanswer.trans (congrArg _ (if_neg hcap))
      refine ⟨fun left => ?_, fun limit => ?_, ?_, hlength⟩
      · simp [hanswer', hnot left]
      · simp [hanswer', hcap]
      · simp [hanswer', hrecent, Nat.not_le.1 hcap]

end Regular

/-! ## The law -/

theorem minInterval_ofLimits (h : minIntervalSeconds.toNat ≤ maxWindowSeconds) :
    (ofLimits minIntervalSeconds maxPerHour).minInterval =
      minIntervalSeconds.toNat * nanosPerSecond := by
  have hmax : maxWindowSeconds ≤ maxSeconds := by decide
  unfold ofLimits
  dsimp only
  rw [Nat.min_eq_left (h.trans hmax)]

/-- On a clock that is regular for an hour and for the longer of an hour and the interval, and so on
every clock that does not go back and does not read inside a leap second, every check is answered from
all deliveries since the last reset. -/
theorem fromAll_of_clock (minIntervalSeconds : UInt64) (maxPerHour : UInt32)
    (hinterval : minIntervalSeconds.toNat ≤ maxWindowSeconds) (calls : List Call) :
    (Regular hour (calls.filterMap Call.reading?) →
      Regular (max (minIntervalSeconds.toNat * nanosPerSecond) hour)
        (calls.filterMap Call.reading?) →
      FromAll minIntervalSeconds maxPerHour calls) ∧
    ((calls.filterMap Call.reading?).Pairwise (· ≤ ·) →
      (∀ now ∈ calls.filterMap Call.reading?, now.isLeap = false) →
      FromAll minIntervalSeconds maxPerHour calls) := by
  have hlaw : Regular hour (calls.filterMap Call.reading?) →
      Regular (max (minIntervalSeconds.toNat * nanosPerSecond) hour)
        (calls.filterMap Call.reading?) →
      FromAll minIntervalSeconds maxPerHour calls := by
    rintro hhour hretention before reason now after rfl
    obtain ⟨readings, hsub, hfollows⟩ := exists_follows minIntervalSeconds maxPerHour before
    obtain ⟨hlimit, hcap⟩ := limits_behind minIntervalSeconds maxPerHour before
    rw [minInterval_ofLimits hinterval] at hlimit
    have hreadings : (readings ++ [now]).Sublist
        ((before ++ .check reason now :: after).filterMap Call.reading?) := by
      rw [List.filterMap_append]
      exact hsub.append (by simp [Call.reading?])
    have hseconds : 0 ≤ minIntervalSeconds.toNat * nanosPerSecond ∧
        minIntervalSeconds.toNat * nanosPerSecond ≤ maxWindowSeconds * nanosPerSecond := by
      unfold nanosPerSecond
      omega
    rw [← hlimit] at hseconds hretention ⊢
    have hanswers : AnswersFromAll _ _ (recorded before) reason now _ :=
      hfollows.answersFromAll hseconds.1 hseconds.2 (hhour.sublist hreadings)
        (hretention.sublist hreadings)
    rwa [hcap] at hanswers
  refine ⟨hlaw, fun hsorted hleap => hlaw ?_ ?_⟩
  · exact Instant.regular_of_pairwise (show 0 < 3600 by decide) hsorted hleap
  · obtain ⟨n, hpos, hretention⟩ := exists_retention (inSeconds_ofLimits minIntervalSeconds maxPerHour)
    rw [minInterval_ofLimits hinterval] at hretention
    rw [hretention]
    exact Instant.regular_of_pairwise hpos hsorted hleap

/-! ## Sample calls -/

/-- A delivery, a check for its reason and one for another reason, and after a reset the first check
again. -/
def sampleCalls : List Call :=
  [.record .systemHaltState .epoch, .check .systemHaltState .epoch,
    .check .exchangeUnreachable .epoch, .reset, .check .systemHaltState .epoch]

theorem fromAll_sampleCalls :
    FromAll 60 1 sampleCalls ∧
      (untilFault handle sampleCalls (ofLimits 60 1)).1 =
        .ok [none, some (.error (.reasonInterval 60)), some (.error (.hourlyCap 1)), none,
          some (.ok ())] := by
  have hsorted : (sampleCalls.filterMap Call.reading?).Pairwise (· ≤ ·) := by decide
  have hleap : ∀ now ∈ sampleCalls.filterMap Call.reading?, now.isLeap = false := by decide
  exact ⟨(fromAll_of_clock 60 1 (by decide) sampleCalls).2 hsorted hleap, by decide +kernel⟩

/-- Two checks behind a delivery, the first of them inside a leap second. -/
def leapCalls : List Call :=
  [.record .systemHaltState hourBeforeLeap, .check .exchangeUnreachable withinLeap,
    .check .systemHaltState afterLeap]

/-- The check inside the leap second makes the limiter forget the delivery before it too early: the
next check lets an alert for the same reason through, although the clock never goes back. -/
theorem not_fromAll_leapCalls :
    (leapCalls.filterMap Call.reading?).Pairwise (· ≤ ·) ∧ ¬ FromAll 3600 30 leapCalls := by
  refine ⟨by decide, fun hfromAll => ?_⟩
  have hanswers := hfromAll [_, _] _ _ [] rfl
  have hlast : lastFor? .systemHaltState (recorded
      [.record .systemHaltState hourBeforeLeap, .check .exchangeUnreachable withinLeap]) =
        some hourBeforeLeap := by decide
  have hanswer := (hanswers.interval_iff 0).2 ⟨_, hlast, by decide, by decide⟩
  exact absurd hanswer (by decide +kernel)

end Limiter

end TradeGate
