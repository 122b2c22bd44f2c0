import TradeGate.Proofs.AuditedGate
import TradeGate.Proofs.Time.Cutoff

/-!
# Delivered alerts of the last hour

The notifier and the store of an audited gate keep the hour apart from each other. The delivered
alerts of the store are the deliveries of the notifier, at the same instants
(`AuditedGate.Delivers`), so what the limiter lets through bounds what a query counts. They differ
at the edge: for the limiter an hour is over at its last instant, and the query takes that instant
in. So a query may count more than the cap, by the alerts of exactly an hour ago and no more
(`AuditedGate.countAlerts_le`), as long as the clock does not read inside a leap second.
-/

namespace TradeGate

open History (stateBehind)

namespace Store

/-- When alerts were delivered, the latest first. -/
def delivered (store : Store) : List Instant :=
  (store.alerts.filter AlertRecord.sent).map AlertRecord.createdAt

theorem countAlerts_eq (store : Store) (now : Instant) (within : UInt32) :
    store.countAlerts now within =
      store.delivered.countP fun at' => now.subOrEarliest (minutes within) ≤ at' := by
  unfold countAlerts delivered
  rw [List.countP_map, List.countP_filter]
  exact List.countP_congr fun alert _ => by simp [and_comm]

end Store

namespace Instant

theorem le_and_not_lt_iff {a b : Instant} : (a ≤ b ∧ ¬ a < b) ↔ b = a := by
  constructor
  · rintro ⟨hle, hnot⟩
    exact ticks_injective (Int.le_antisymm (Int.not_lt.1 hnot) hle)
  · rintro rfl
    exact ⟨Int.le_refl _, Int.lt_irrefl _⟩

theorem countP_le_eq (cutoff : Instant) (readings : List Instant) :
    readings.countP (cutoff ≤ ·) = readings.countP (cutoff < ·) + readings.count cutoff := by
  have hafter : readings.countP (fun t => decide (cutoff ≤ t) && decide (cutoff < t)) =
      readings.countP (cutoff < ·) :=
    List.countP_congr fun t _ => by
      have hle : cutoff < t → cutoff ≤ t := fun hlt => Int.le_of_lt hlt
      simpa using hle
  have hedge : readings.countP (fun t => decide (cutoff ≤ t) && !decide (cutoff < t)) =
      readings.count cutoff :=
    List.countP_congr fun t _ => by simpa using le_and_not_lt_iff
  rw [List.countP_eq_countP_filter_add _ (cutoff ≤ ·) (cutoff < ·), List.countP_filter,
    List.countP_filter, hafter, ← hedge]

end Instant

namespace AuditedGate

variable {σ : Type} {audited : AuditedGate σ} {policy : AlertPolicy} {sender : Option Sender}
  {visits : List Visit} {notices : List Notice} {store : Store}

/-- What a record adds to the delivered alerts is the delivery that was made. -/
theorem delivered_ofOutcome? (id : RecordId) (outcome : AlertOutcome) (notice : Notice) :
    (((AlertRecord.ofOutcome? id outcome notice.now).toList.filter AlertRecord.sent).map
        AlertRecord.createdAt).reverse =
      (Notifier.delivery? (notice, .ok outcome)).toList.map Prod.snd := by
  cases outcome <;> rfl

/-- The notifier has been told these notices, in the course of the visits, and the delivered alerts
of the store are its deliveries. -/
structure Delivers (policy : AlertPolicy) (sender : Option Sender) (visits : List Visit)
    (audited : AuditedGate σ) (notices : List Notice) (store : Store) : Prop where
  notifier_eq : audited.notifier = some (.behind policy sender notices)
  repository_eq : audited.repository = some (.store store)
  told : (notices.map Notice.now).Sublist (visits.map Visit.later)
  delivered_eq : store.delivered.reverse =
    (Notifier.deliveries policy sender notices).map Prod.snd

theorem delivers_opening (gate : Gate σ) (state : σ) (policy : AlertPolicy)
    (sender : Option Sender) (metrics : Metrics) :
    Delivers policy sender [] (opening gate state (some ⟨policy, sender⟩) metrics) [] .empty :=
  ⟨rfl, rfl, .slnil, rfl⟩

/-- One more visit tells the notifier at most once, and the store has what was delivered. -/
theorem Delivers.onVisit (h : Delivers policy sender visits audited notices store)
    (hinterval : policy.minAlertIntervalSeconds.toNat ≤ maxWindowSeconds) (size : σ → Nat)
    (visit : Visit) :
    ∃ notices' store',
      Delivers policy sender (visits ++ [visit]) (onVisit size visit audited).2 notices' store' := by
  obtain ⟨hnotifier, hstore, htold, hdelivered⟩ := h
  cases hblock : (decideAlone audited.gate visit audited.state).1.isBlock with
  | false =>
    obtain ⟨-, -, -, hsame, store', hstore', -, halerts⟩ :=
      leaves_of_untold size hstore (.inl hblock)
    refine ⟨notices, store', hsame.trans hnotifier, hstore', ?_, ?_⟩
    · rw [List.map_append]
      exact htold.trans (List.sublist_append_left _ _)
    · unfold Store.delivered
      rw [halerts]
      exact hdelivered
  | true =>
    have hsuits := Notifier.suits_behind policy sender notices
    obtain ⟨outcome, houtcome⟩ := hsuits.exists_notify_eq_ok hinterval
      (decideAlone audited.gate visit audited.state).1 visit.later
    obtain ⟨-, -, -, hnext, store', hstore', -, halerts⟩ :=
      leaves_of_told size hstore hnotifier hblock houtcome
    generalize (decideAlone audited.gate visit audited.state).1 = decision at *
    refine ⟨notices ++ [⟨decision, visit.later⟩], store', ?_, hstore', ?_, ?_⟩
    · rw [hnext, Notifier.behind_append_singleton]
    · rw [List.map_append, List.map_append]
      exact htold.append (.refl _)
    · rw [Notifier.deliveries_append_singleton, houtcome, List.map_append, ← hdelivered,
        ← delivered_ofOutcome? visit.id]
      unfold Store.delivered
      rw [halerts, List.filter_append, List.map_append, List.reverse_append]
      rfl

/-- Behind visits of an audited gate the store has the deliveries of the notifier. -/
theorem exists_delivers (hinterval : policy.minAlertIntervalSeconds.toNat ≤ maxWindowSeconds)
    (gate : Gate σ) (state : σ) (sender : Option Sender) (metrics : Metrics) (size : σ → Nat)
    (visits : List Visit) :
    ∃ notices store, Delivers policy sender visits
      (stateBehind (onVisit size) (opening gate state (some ⟨policy, sender⟩) metrics) visits)
      notices store := by
  induction visits using List.reverseRecOn with
  | nil => exact ⟨[], .empty, delivers_opening gate state policy sender metrics⟩
  | append_singleton visits visit ih =>
    obtain ⟨notices, store, hdelivers⟩ := ih
    rw [History.stateBehind_append_singleton]
    exact hdelivers.onVisit hinterval size visit

/-- Under such a clock the alerts delivered less than an hour ago are no more than the cap. -/
theorem Delivers.countP_le (h : Delivers policy sender visits audited notices store)
    (hclock : (visits.map Visit.later).Pairwise (· ≤ ·))
    (hleap : ∀ visit ∈ visits, visit.later.isLeap = false) {now : Instant}
    (hnow : ∀ visit ∈ visits, visit.later ≤ now) :
    (store.delivered.countP fun seen => now.subOrEarliest (Store.minutes 60) < seen) ≤
      policy.maxAlertsPerHour.toNat := by
  have hseen : ∀ seen ∈ notices.map Notice.now, seen.isLeap = false ∧ seen ≤ now := by
    intro seen hmem
    obtain ⟨visit, hvisit, rfl⟩ := List.mem_map.1 (h.told.subset hmem)
    exact ⟨hleap visit hvisit, hnow visit hvisit⟩
  rw [List.forall_mem_map] at hseen
  have hkeeps := Notifier.keeps_behind policy sender (hclock.sublist h.told)
    (fun notice hnotice => (hseen notice hnotice).1) fun notice hnotice => (hseen notice hnotice).2
  have hcap := hkeeps.underCap
  rw [(Notifier.suits_behind policy sender notices).maxPerHour_eq] at hcap
  have hcount := Limiter.countP_le_of_underCap
    (fun x => now.unixNanos - Limiter.hour < x ∧ x ≤ now.unixNanos) (fun x y hx hy => by omega) hcap
  refine Nat.le_trans ?_ hcount
  rw [← List.countP_reverse, h.delivered_eq, List.countP_map]
  refine List.countP_mono_left fun delivery hdelivery hlate => ?_
  obtain ⟨hplain, hpast⟩ := hkeeps.knows.past delivery hdelivery
  have hlate : now.subOrEarliest (Store.minutes 60) < delivery.2 := of_decide_eq_true hlate
  exact decide_eq_true ⟨Instant.lt_unixNanos_of_subOrEarliest_lt (by decide : 0 < 3600) hplain hlate,
    hpast⟩

/-- What a query counts as delivered in the last hour is at most the cap and what was delivered
exactly an hour ago, if the clock does not go back and does not read inside a leap second. -/
theorem countAlerts_le {policy : Policy} (hpolicy : policy.Accepted) (gate : Gate σ) (state : σ)
    (sender : Option Sender) (metrics : Metrics) (size : σ → Nat)
    (hclock : (visits.map Visit.later).Pairwise (· ≤ ·))
    (hleap : ∀ visit ∈ visits, visit.later.isLeap = false) {now : Instant}
    (hnow : ∀ visit ∈ visits, visit.later ≤ now) :
    ∃ store,
      (stateBehind (onVisit size) (opening gate state (some ⟨policy.alerting, sender⟩) metrics)
        visits).repository = some (.store store) ∧
      store.countAlerts now 60 ≤ policy.alerting.maxAlertsPerHour.toNat +
        store.delivered.count (now.subOrEarliest (Store.minutes 60)) := by
  obtain ⟨notices, store, hdelivers⟩ := exists_delivers
    (Policy.minAlertIntervalSeconds_le hpolicy) gate state sender metrics size visits
  refine ⟨store, hdelivers.repository_eq, ?_⟩
  rw [Store.countAlerts_eq, Instant.countP_le_eq]
  exact Nat.add_le_add_right (hdelivers.countP_le hclock hleap hnow) _

/-! ## Sample visits -/

/-- The standard policy with one alert an hour at most. -/
def onePerHour : Policy :=
  { Policy.standard with
    alerting := { Policy.standard.alerting with maxAlertsPerHour := 1 } }

/-- An hour after the start of 1970. -/
def hourAfterEpoch : Instant := (Instant.ofParts? 3600 0).getD .epoch

/-- Two blocks that are an hour apart. -/
def hourApart : List Visit := [emptyVisit .epoch, emptyVisit hourAfterEpoch]

theorem countAlerts_le_hourApart :
    onePerHour.Accepted ∧ (hourApart.map Visit.later).Pairwise (· ≤ ·) ∧
      (∀ visit ∈ hourApart, visit.later.isLeap = false) ∧
      (∀ visit ∈ hourApart, visit.later ≤ hourAfterEpoch) ∧
      ∃ store,
        (stateBehind (onVisit fun _ => 0)
          (opening bareGate () (some ⟨onePerHour.alerting, some .delivering⟩) .zero)
          hourApart).repository = some (.store store) ∧
        store.countAlerts hourAfterEpoch 60 ≤ onePerHour.alerting.maxAlertsPerHour.toNat +
          store.delivered.count (hourAfterEpoch.subOrEarliest (Store.minutes 60)) := by
  have hpolicy : onePerHour.Accepted := by decide +kernel
  have hclock : (hourApart.map Visit.later).Pairwise (· ≤ ·) := by decide
  have hleap : ∀ visit ∈ hourApart, visit.later.isLeap = false := by decide
  have hnow : ∀ visit ∈ hourApart, visit.later ≤ hourAfterEpoch := by decide
  exact ⟨hpolicy, hclock, hleap, hnow,
    countAlerts_le hpolicy bareGate () (some .delivering) .zero (fun _ => 0) hclock hleap hnow⟩

/-- What a store counts as delivered in the last hour behind visits of a gate under that policy. -/
def countBehind (visits : List Visit) (now : Instant) : Option Nat :=
  (stateBehind (onVisit fun _ => 0)
    (opening bareGate () (some ⟨onePerHour.alerting, some .delivering⟩) .zero)
    visits).repository.map fun repository => repository.view.countAlerts now 60

/-- A block 3599.7 seconds before the start of 2017, and one inside the leap second. -/
def aroundLeap : List Visit := [emptyVisit .hourBeforeLeap, emptyVisit .withinLeap]

/-- With one alert an hour at most a query counts two: the alert of exactly an hour ago no longer
holds back a new one, and neither does an alert that is less than an hour old, if the clock reads
inside a leap second in between. -/
theorem countBehind_exceeds :
    onePerHour.Accepted ∧ onePerHour.alerting.maxAlertsPerHour.toNat = 1 ∧
      (hourApart.map Visit.later).Pairwise (· ≤ ·) ∧
      countBehind hourApart hourAfterEpoch = some 2 ∧
      (aroundLeap.map Visit.later).Pairwise (· ≤ ·) ∧
      (∀ visit ∈ aroundLeap, visit.later ≤ .afterLeap) ∧
      countBehind aroundLeap .afterLeap = some 2 := by
  decide +kernel

end AuditedGate

end TradeGate
