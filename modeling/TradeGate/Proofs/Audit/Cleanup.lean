import TradeGate.Proofs.Audit.Retention

/-!
# Cleanups one after the other

A cleanup drops what is older than an instant and nothing else, and returns how much that was
(`Store.Forgets`). From one instant a longer retention reaches no less far back, inside a leap second
too, so that of several cleanups at one instant the shortest retention decides
(`Store.cleanup_cleanup`).
-/

namespace TradeGate

namespace Store

/-! ## What is dropped -/

/-- From one store to the other what is older than an instant is gone, `removed` things in all. The
rest is as it was and in the same order. -/
structure Forgets (cutoff : Instant) (removed : Nat) (before after : Store) : Prop where
  decisions : after.decisions.Sublist before.decisions
  alerts : after.alerts.Sublist before.alerts
  days : after.days.Sublist before.days
  decisions_iff : ∀ decision ∈ before.decisions,
    decision ∈ after.decisions ↔ cutoff ≤ decision.timestamp
  alerts_iff : ∀ alert ∈ before.alerts, alert ∈ after.alerts ↔ cutoff ≤ alert.createdAt
  days_iff : ∀ row ∈ before.days, row ∈ after.days ↔ cutoff.date ≤ row.date
  removed_eq : removed = before.decisions.countP (·.timestamp < cutoff) +
    before.alerts.countP (·.createdAt < cutoff) + before.days.countP (·.date < cutoff.date)
  size_eq : after.size + removed = before.size

/-- What a filter passes and what it does not are all there is. -/
theorem length_filter_add_countP {α : Type} {p q : α → Bool} (h : ∀ a, q a = !p a)
    (items : List α) : (items.filter p).length + items.countP q = items.length := by
  rw [← List.countP_eq_length_filter, List.length_eq_countP_add_countP p]
  congr 1
  exact List.countP_congr fun a _ => by simp [h]

theorem lt_eq_not_le (a b : Instant) : decide (a < b) = !decide (b ≤ a) := by
  rw [← decide_not]
  exact decide_eq_decide.2 Int.not_le.symm

theorem date_lt_eq_not_le (a b : Date) : decide (a < b) = !decide (b ≤ a) := by
  rw [← decide_not]
  exact decide_eq_decide.2 Int.not_le.symm

theorem size_since (cutoff : Instant) (store : Store) :
    (store.since cutoff).size + (store.decisions.countP (·.timestamp < cutoff) +
      store.alerts.countP (·.createdAt < cutoff) + store.days.countP (·.date < cutoff.date)) =
      store.size := by
  have hdecisions := length_filter_add_countP
    (fun decision : Decision => lt_eq_not_le decision.timestamp cutoff) store.decisions
  have halerts := length_filter_add_countP
    (fun alert : AlertRecord => lt_eq_not_le alert.createdAt cutoff) store.alerts
  have hdays := length_filter_add_countP
    (fun row : DailyStats => date_lt_eq_not_le row.date cutoff.date) store.days
  unfold size since
  dsimp only
  omega

theorem cleanup_fst (store : Store) (now : Instant) (retentionDays : UInt32) :
    (store.cleanup now retentionDays).1 =
      store.size - (store.since (now.subOrEarliest (daySpan retentionDays))).size :=
  rfl

/-- A cleanup drops what is older than its retention. -/
theorem forgets_cleanup (store : Store) (now : Instant) (retentionDays : UInt32) :
    Forgets (now.subOrEarliest (daySpan retentionDays)) (store.cleanup now retentionDays).1 store
      (store.cleanup now retentionDays).2 := by
  have hsize := size_since (now.subOrEarliest (daySpan retentionDays)) store
  rw [cleanup_fst, cleanup_snd]
  refine ⟨List.filter_sublist, List.filter_sublist, List.filter_sublist, ?_, ?_, ?_, ?_, ?_⟩
  · intro decision hmem
    simp [since, hmem]
  · intro alert hmem
    simp [since, hmem]
  · intro row hmem
    simp [since, hmem]
  · omega
  · omega

/-! ## Two cleanups -/

/-- What is held since the later of two instants. -/
theorem since_since_of_le {first last : Instant} (h : first ≤ last) (store : Store) :
    (store.since first).since last = store.since last := by
  unfold since
  dsimp only
  congr 1
  · refine filter_filter_of_imp fun decision _ hdecision => ?_
    simp only [decide_eq_true_eq] at hdecision ⊢
    exact Int.le_trans h hdecision
  · refine filter_filter_of_imp fun alert _ halert => ?_
    simp only [decide_eq_true_eq] at halert ⊢
    exact Int.le_trans h halert
  · refine filter_filter_of_imp fun row _ hrow => ?_
    simp only [decide_eq_true_eq] at hrow ⊢
    exact Int.le_trans (Instant.date_le_date h) hrow

/-- Of two cleanups at one instant, in either order, the shorter retention decides what is left. -/
theorem cleanup_cleanup_snd (store : Store) (now : Instant) (a b : UInt32) :
    ((store.cleanup now a).2.cleanup now b).2 = (store.cleanup now (min a b)).2 := by
  have hcutoff : ∀ {short long : UInt32}, short ≤ long →
      now.subOrEarliest (daySpan long) ≤ now.subOrEarliest (daySpan short) :=
    Instant.subOrEarliest_units_antitone now 86400
  rw [cleanup_snd, cleanup_snd, cleanup_snd]
  by_cases h : a ≤ b
  · rw [show min a b = a from if_pos h, since_comm, since_since_of_le (hcutoff h)]
  · rw [show min a b = b from if_neg h,
      since_since_of_le (hcutoff (UInt32.le_of_lt (UInt32.not_le.1 h)))]

/-- Two cleanups at one instant leave what one with the shorter retention leaves, and together they
return what it returns; the same cleanup again finds nothing to drop. Each returns how much it
drops. -/
theorem cleanup_cleanup (store : Store) (now : Instant) (a b : UInt32) :
    ((store.cleanup now a).2.cleanup now b).2 = (store.cleanup now (min a b)).2 ∧
      (store.cleanup now a).1 + ((store.cleanup now a).2.cleanup now b).1 =
        (store.cleanup now (min a b)).1 ∧
      (store.cleanup now a).2.cleanup now a = (0, (store.cleanup now a).2) ∧
      Forgets (now.subOrEarliest (daySpan a)) (store.cleanup now a).1 store
        (store.cleanup now a).2 := by
  have hleft := cleanup_cleanup_snd store now a b
  have hagain := cleanup_cleanup_snd store now a a
  rw [show min a a = a from ite_self a] at hagain
  have hfirst := (forgets_cleanup store now a).size_eq
  have hsecond := (forgets_cleanup (store.cleanup now a).2 now b).size_eq
  have honce := (forgets_cleanup store now (min a b)).size_eq
  have hrepeated := (forgets_cleanup (store.cleanup now a).2 now a).size_eq
  rw [hleft] at hsecond
  rw [hagain] at hrepeated
  exact ⟨hleft, by omega, Prod.ext (by simpa using hrepeated) hagain, forgets_cleanup store now a⟩

end Store

end TradeGate
