import TradeGate.Proofs.Alert.Notifier
import TradeGate.Proofs.Time.Cutoff

/-!
# Only deliveries count

Every call that gets as far as the limits makes the limiter forget what it no longer needs, even if
nothing is delivered. Where the clock does not go back this does not show later on: what is
forgotten at one instant would be forgotten at every later one (`Limiter.prune_prune`). So calls
that delivered nothing can be left out of a run, and the others are answered as before
(`Notifier.OnlyDeliveriesCount`), unless one of those left out was made inside a leap second.
-/

namespace TradeGate

open History (answered stateBehind)

/-! ## Forgetting twice -/

namespace Limiter

theorem dropWhile_dropWhile_of_imp {α : Type} {p q : α → Bool} (h : ∀ a, p a = true → q a = true)
    (items : List α) : (items.dropWhile p).dropWhile q = items.dropWhile q := by
  induction items with
  | nil => rfl
  | cons a rest ih =>
    cases hp : p a with
    | false => rw [List.dropWhile_cons_of_neg (by simp [hp])]
    | true => rw [List.dropWhile_cons_of_pos hp, List.dropWhile_cons_of_pos (h a hp), ih]

/-- The least distance is a whole number of seconds. -/
def InSeconds (limiter : Limiter) : Prop := ∃ n : Nat, limiter.minInterval = n * nanosPerSecond

theorem inSeconds_ofLimits (minIntervalSeconds : UInt64) (maxPerHour : UInt32) :
    (ofLimits minIntervalSeconds maxPerHour).InSeconds :=
  ⟨min minIntervalSeconds.toNat maxSeconds, rfl⟩

theorem exists_retention {limiter : Limiter} (h : limiter.InSeconds) :
    ∃ n : Nat, 0 < n ∧ max limiter.minInterval hour = n * nanosPerSecond := by
  obtain ⟨n, hn⟩ := h
  refine ⟨max n 3600, by omega, ?_⟩
  rw [hn]
  unfold hour nanosPerSecond
  omega

/-- A limiter is its limits and the deliveries that it knows of. -/
theorem ext_of_deliveries {limiter other : Limiter} (hinterval : limiter.minInterval = other.minInterval)
    (hmax : limiter.maxPerHour = other.maxPerHour) (hlast : limiter.lastByReason = other.lastByReason)
    (hrecent : limiter.recent = other.recent) : limiter = other := by
  cases limiter
  cases other
  subst hinterval hmax hlast hrecent
  rfl

section

variable {limiter : Limiter} {now later : Instant} (hleap : now.isLeap = false)
  (hlater : now ≤ later)

include hleap hlater

theorem recent_prune_prune (limiter : Limiter) :
    ((limiter.prune now).prune later).recent = (limiter.prune later).recent := by
  have hhour : hour = (3600 : Nat) * nanosPerSecond := rfl
  unfold prune
  dsimp only
  rw [hhour]
  cases hago : now.sub? ((3600 : Nat) * nanosPerSecond) with
  | none => rfl
  | some hourAgo =>
    obtain ⟨next, hnext, hle⟩ := Instant.exists_sub?_of_le (by decide) hleap hlater hago
    rw [hnext]
    refine dropWhile_dropWhile_of_imp (fun seen hseen => ?_) _
    simp only [decide_eq_true_eq] at hseen ⊢
    exact Int.le_trans hseen hle

theorem lastByReason_prune_prune (hseconds : limiter.InSeconds) :
    ((limiter.prune now).prune later).lastByReason = (limiter.prune later).lastByReason := by
  obtain ⟨n, hpos, hretention⟩ := exists_retention hseconds
  unfold prune
  dsimp only
  rw [hretention]
  cases hago : now.sub? (n * nanosPerSecond) with
  | none => rfl
  | some cutoff =>
    obtain ⟨next, hnext, hle⟩ := Instant.exists_sub?_of_le hpos hleap hlater hago
    rw [hnext]
    dsimp only
    rw [List.filter_filter]
    refine List.filter_congr fun d _ => ?_
    rw [Bool.and_eq_left_iff_imp]
    simp only [decide_eq_true_eq]
    exact fun hseen => Int.lt_of_le_of_lt hle hseen

/-- Outside leap seconds what is forgotten at an instant is forgotten at every later one. -/
theorem prune_prune (hseconds : limiter.InSeconds) :
    (limiter.prune now).prune later = limiter.prune later :=
  ext_of_deliveries rfl rfl (lastByReason_prune_prune hleap hlater hseconds)
    (recent_prune_prune hleap hlater limiter)

end

end Limiter

namespace Notifier

/-! ## A call with its reply -/

/-- A decision that the notifier is told of, what the sender replies if it is handed the alert, and
whether the call stays in the run. -/
structure Trial extends Notice where
  reply : Except DeliveryFailure Unit
  stays : Bool

/-- The notifier with a sender that gives one reply, if it has a sender. -/
def replying (notifier : Notifier) (reply : Except DeliveryFailure Unit) : Notifier :=
  { notifier with sender := notifier.sender.map fun _ _ _ => reply }

/-- A call of the notifier while the sender gives the reply of the trial. -/
def onTrial (trial : Trial) (notifier : Notifier) : Except SpanFault AlertOutcome × Notifier :=
  (notifier.replying trial.reply).notify trial.decision trial.now

/-- An answer that is not a delivery. -/
def Undelivered (answer : Except SpanFault AlertOutcome) : Prop :=
  ∀ alert, answer ≠ .ok (.sent alert)

/-- A call that can be left out: it delivered nothing, and it was either skipped or not made inside
a leap second. -/
def LeavesNoTrace (entry : Trial × Except SpanFault AlertOutcome) : Prop :=
  Undelivered entry.2 ∧ (entry.1.now.isLeap = false ∨ ∃ why, entry.2 = .ok (.skipped why))

/-- No call from `now` on tells the two notifiers apart. -/
structure SameFrom (now : Instant) (notifier other : Notifier) : Prop where
  policy_eq : notifier.policy = other.policy
  isSome_sender_eq : notifier.sender.isSome = other.sender.isSome
  inSeconds : notifier.limiter.InSeconds
  prune_eq : ∀ later, now ≤ later → notifier.limiter.prune later = other.limiter.prune later

variable {notifier other : Notifier} {now later : Instant}

theorem SameFrom.mono (h : SameFrom now notifier other) (hlater : now ≤ later) :
    SameFrom later notifier other :=
  ⟨h.policy_eq, h.isSome_sender_eq, h.inSeconds, fun _ hle => h.prune_eq _ (Int.le_trans hlater hle)⟩

/-- A call gives both the same answer, and does not tell them apart either. -/
theorem SameFrom.onTrial {trial : Trial} (h : SameFrom trial.now notifier other) :
    (onTrial trial notifier).1 = (onTrial trial other).1 ∧
      SameFrom trial.now (onTrial trial notifier).2 (onTrial trial other).2 := by
  obtain ⟨policy, limiter, sender, handed⟩ := notifier
  obtain ⟨otherPolicy, otherLimiter, otherSender, otherHanded⟩ := other
  obtain ⟨hpolicy, hsome, hseconds, hprune⟩ := h
  have hpruned := hprune trial.now (Int.le_refl _)
  have hprunedSeconds : (otherLimiter.prune trial.now).InSeconds := by
    rw [← show limiter.prune trial.now = otherLimiter.prune trial.now from hpruned]
    exact hseconds
  dsimp only at hpolicy hsome hpruned
  subst hpolicy
  unfold Notifier.onTrial replying notify Limiter.check
  dsimp only
  cases admitted policy trial.decision with
  | error why => exact ⟨rfl, rfl, by simpa using hsome, hseconds, hprune⟩
  | ok alert =>
    -- both have forgotten the same, so the limits answer the same
    rw [hpruned]
    dsimp only
    cases (otherLimiter.prune trial.now).checkPruned alert.reason trial.now with
    | error fault => exact ⟨rfl, rfl, by simpa using hsome, hprunedSeconds, fun _ _ => rfl⟩
    | ok answer =>
      cases answer with
      | error limit => exact ⟨rfl, rfl, by simpa using hsome, hprunedSeconds, fun _ _ => rfl⟩
      | ok _ =>
        unfold deliver
        cases sender with
        | none =>
          cases otherSender with
          | none => exact ⟨rfl, rfl, rfl, hprunedSeconds, fun _ _ => rfl⟩
          | some _ => exact nomatch hsome
        | some _ =>
          cases otherSender with
          | none => exact nomatch hsome
          | some _ =>
            dsimp only [Option.map_some]
            cases trial.reply <;> exact ⟨rfl, rfl, rfl, hprunedSeconds, fun _ _ => rfl⟩

/-- A call that leaves no trace is not seen from then on. -/
theorem SameFrom.onTrial_left {trial : Trial} (h : SameFrom trial.now notifier other)
    (htrace : LeavesNoTrace (trial, (Notifier.onTrial trial notifier).1)) :
    SameFrom trial.now (Notifier.onTrial trial notifier).2 other := by
  have hpruned : trial.now.isLeap = false → ∀ later, trial.now ≤ later →
      (notifier.limiter.prune trial.now).prune later = other.limiter.prune later := by
    intro hleap later hlater
    rw [Limiter.prune_prune hleap hlater h.inSeconds, h.prune_eq later hlater]
  unfold Notifier.onTrial at htrace ⊢
  have hstep := step_notify (notifier.replying trial.reply) trial.decision trial.now
  generalize (notifier.replying trial.reply).notify trial.decision trial.now = result at *
  obtain ⟨hpolicy, hsome, hseconds, hprune⟩ := h
  have hsome : (notifier.replying trial.reply).sender.isSome = other.sender.isSome := by
    unfold replying
    rw [Option.isSome_map, hsome]
  obtain ⟨hundelivered, hleap | ⟨why, hskipped⟩⟩ := htrace
  · cases hstep with
    | skipped => exact ⟨hpolicy, hsome, hseconds, hprune⟩
    | faulted | limited | unsent | failed => exact ⟨hpolicy, hsome, hseconds, hpruned hleap⟩
    | sent => exact absurd rfl (hundelivered _)
  · cases hstep with
    | skipped => exact ⟨hpolicy, hsome, hseconds, hprune⟩
    | faulted | limited | unsent | failed | sent => exact nomatch hskipped

/-! ## Calls one after the other -/

/-- Between two notifiers that no call tells apart, calls that leave no trace make no difference. -/
theorem answered_filter_stays {trials : List Trial}
    (hsorted : (trials.map fun trial => trial.now).Pairwise (· ≤ ·))
    (hsame : ∀ trial ∈ trials, SameFrom trial.now notifier other)
    (htrace : ∀ entry ∈ answered Notifier.onTrial notifier trials,
      entry.1.stays = false → LeavesNoTrace entry) :
    answered Notifier.onTrial other (trials.filter (·.stays)) =
      (answered Notifier.onTrial notifier trials).filter (·.1.stays) := by
  induction trials generalizing notifier other with
  | nil => rfl
  | cons trial rest ih =>
    rw [List.map_cons, List.pairwise_cons, List.forall_mem_map] at hsorted
    have hfirst := hsame trial List.mem_cons_self
    rw [show answered Notifier.onTrial notifier (trial :: rest) =
      (trial, (Notifier.onTrial trial notifier).1) ::
        answered Notifier.onTrial (Notifier.onTrial trial notifier).2 rest from rfl] at htrace ⊢
    have htrace := List.forall_mem_cons.1 htrace
    cases hstays : trial.stays with
    | true =>
      obtain ⟨hanswer, hnext⟩ := hfirst.onTrial
      simp only [List.filter_cons, hstays, if_true]
      rw [hanswer]
      exact congrArg (List.cons _)
        (ih hsorted.2 (fun later hlater => hnext.mono (hsorted.1 later hlater)) htrace.2)
    | false =>
      have hnext := hfirst.onTrial_left (htrace.1 hstays)
      simp only [List.filter_cons, hstays, Bool.false_eq_true, if_false]
      exact ih hsorted.2 (fun later hlater => hnext.mono (hsorted.1 later hlater)) htrace.2

section Run

variable (policy : AlertPolicy) (sender : Option Sender)

/-- The calls of a new notifier, each with the answer to it. -/
def outcomes (trials : List Trial) : List (Trial × Except SpanFault AlertOutcome) :=
  answered Notifier.onTrial (ofPolicy policy sender) trials

/-- If the calls that are left out delivered nothing, the others are answered as before. -/
def OnlyDeliveriesCount (trials : List Trial) : Prop :=
  (∀ entry ∈ outcomes policy sender trials, entry.1.stays = false → Undelivered entry.2) →
    outcomes policy sender (trials.filter (·.stays)) =
      (outcomes policy sender trials).filter (·.1.stays)

variable {policy sender} in
theorem Suits.replying (h : Suits policy sender notifier) (reply : Except DeliveryFailure Unit) :
    Suits policy (sender.map fun _ _ _ => reply) (notifier.replying reply) :=
  ⟨h.policy_eq, by rw [← h.sender_eq]; rfl, h.minInterval_eq, h.maxPerHour_eq⟩

theorem exists_outcome (hinterval : policy.minAlertIntervalSeconds.toNat ≤ maxWindowSeconds)
    (trials : List Trial) :
    ∀ entry ∈ outcomes policy sender trials, ∃ outcome, entry.2 = .ok outcome := by
  have hstep : ∀ (trial : Trial) (notifier : Notifier), (∃ sender, Suits policy sender notifier) →
      (∃ outcome, (Notifier.onTrial trial notifier).1 = .ok outcome) ∧
        ∃ sender, Suits policy sender (Notifier.onTrial trial notifier).2 := by
    rintro trial notifier ⟨sender, hsuits⟩
    have hasked := hsuits.replying trial.reply
    exact ⟨hasked.exists_notify_eq_ok hinterval _ _, _, hasked.notify _ _⟩
  exact History.forall_mem_answered Notifier.onTrial ⟨sender, suits_ofPolicy policy sender⟩ hstep
    trials

/-- Every call is answered. Under a clock that does not go back, calls that delivered nothing can be
left out, unless one of them went as far as the limits inside a leap second. -/
theorem onlyDeliveriesCount_of_clock {trials : List Trial}
    (hsorted : (trials.map fun trial => trial.now).Pairwise (· ≤ ·))
    (hleap : ∀ entry ∈ outcomes policy sender trials, entry.1.stays = false →
      entry.1.now.isLeap = false ∨ ∃ why, entry.2 = .ok (.skipped why)) :
    OnlyDeliveriesCount policy sender trials ∧
      (policy.minAlertIntervalSeconds.toNat ≤ maxWindowSeconds →
        ∀ entry ∈ outcomes policy sender trials, ∃ outcome, entry.2 = .ok outcome) := by
  refine ⟨fun hundelivered => ?_, fun hinterval => exists_outcome policy sender hinterval trials⟩
  have hseconds : (ofPolicy policy sender).limiter.InSeconds := Limiter.inSeconds_ofLimits _ _
  exact answered_filter_stays hsorted (fun _ _ => ⟨rfl, rfl, hseconds, fun _ _ => rfl⟩)
    fun entry hentry hout => ⟨hundelivered entry hentry hout, hleap entry hentry hout⟩

end Run

/-! ## Calls about sample blocks -/

/-- A call about a sample block. -/
def sampleTrial (reason : Reason) (now : Instant) (reply : Except DeliveryFailure Unit)
    (stays : Bool) : Trial :=
  { sampleNotice reason now with reply, stays }

/-- A block whose alert cannot be delivered, one that is told of, and the first one again, which is
held back: that it was tried before does not count. -/
def retries : List Trial :=
  [sampleTrial .systemHaltState .epoch (.error ⟨"down"⟩) false,
    sampleTrial .exchangeUnreachable .epoch (.ok ()) true,
    sampleTrial .exchangeUnreachable .epoch (.ok ()) false,
    sampleTrial .systemHaltState .epoch (.ok ()) true]

/-- What is seen of answers. -/
def labels (entries : List (Trial × Except SpanFault AlertOutcome)) : List (Option String) :=
  entries.map fun entry => entry.2.toOption.map AlertOutcome.label

theorem undelivered_of_label {answer : Except SpanFault AlertOutcome}
    (h : answer.toOption.map AlertOutcome.label ≠ some "sent") : Undelivered answer := by
  rintro alert rfl
  exact h rfl

theorem onlyDeliveriesCount_retries :
    labels (outcomes .standard (some .delivering) retries) =
        [some "failed", some "sent", some "rate_limited", some "sent"] ∧
      outcomes .standard (some .delivering) (retries.filter (·.stays)) =
        (outcomes .standard (some .delivering) retries).filter (·.1.stays) := by
  have hlabels : labels (outcomes .standard (some .delivering) retries) =
      [some "failed", some "sent", some "rate_limited", some "sent"] := by decide +kernel
  have hsorted : (retries.map fun trial => trial.now).Pairwise (· ≤ ·) := by decide
  have hleap : ∀ entry ∈ outcomes .standard (some .delivering) retries,
      entry.1.now.isLeap = false := by decide +kernel
  have hleft : ∀ entry ∈ outcomes .standard (some .delivering) retries, entry.1.stays = false →
      entry.2.toOption.map AlertOutcome.label ≠ some "sent" := by decide +kernel
  exact ⟨hlabels, (onlyDeliveriesCount_of_clock _ _ hsorted fun entry hentry _ =>
    Or.inl (hleap entry hentry)).1 fun entry hentry hstays =>
      undelivered_of_label (hleft entry hentry hstays)⟩

/-- What is left out here failed inside the leap second. -/
def leapTrials : List Trial :=
  [sampleTrial .systemHaltState .hourBeforeLeap (.ok ()) true,
    sampleTrial .exchangeUnreachable .withinLeap (.error ⟨"down"⟩) false,
    sampleTrial .systemHaltState .afterLeap (.ok ()) true]

/-- The call inside the leap second delivers nothing, but makes the limiter forget the delivery
before it too early: without that call the third one is held back. -/
theorem not_onlyDeliveriesCount_leapTrials :
    (leapTrials.map fun trial => trial.now).Pairwise (· ≤ ·) ∧
      ¬ OnlyDeliveriesCount hourlyPolicy (some .delivering) leapTrials := by
  refine ⟨by decide, fun hcount => ?_⟩
  have hleft : ∀ entry ∈ outcomes hourlyPolicy (some .delivering) leapTrials,
      entry.1.stays = false → entry.2.toOption.map AlertOutcome.label ≠ some "sent" := by
    decide +kernel
  have hsame := hcount fun entry hentry hstays => undelivered_of_label (hleft entry hentry hstays)
  have hall : labels ((outcomes hourlyPolicy (some .delivering) leapTrials).filter (·.1.stays)) =
      [some "sent", some "sent"] := by decide +kernel
  have hkept : labels (outcomes hourlyPolicy (some .delivering) (leapTrials.filter (·.stays))) =
      [some "sent", some "rate_limited"] := by decide +kernel
  rw [hsame, hall] at hkept
  exact absurd hkept (by decide)

end Notifier

end TradeGate
