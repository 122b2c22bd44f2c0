import TradeGate.Proofs.Check.Relaxation

/-!
# The presets

The presets are ordered: the standard policy relaxes the strict one, and the one for testing relaxes
the standard one. There is also a calm view of the system, which none of them objects to.
-/

namespace TradeGate

open Binary64 (le)
open Text (Lists)

/-! ## Order -/

theorem lists_of_mem {texts : List String} {s : String} (h : s ∈ texts) : Lists texts s :=
  ⟨s, h, rfl⟩

namespace Policy

theorem standard_relaxes_strict : standard.Relaxes strict where
  rules := by
    refine ⟨id, rfl, id, id, id, id, id, fun _ h => lists_of_mem h, id, id⟩
  systemIntegrity := by
    refine ⟨?_, ?_, ?_, id, ?_, id, ?_, ?_, rfl⟩ <;> decide +kernel
  executionSafety := by
    refine ⟨id, ?_, fun _ h => lists_of_mem h, ?_, ?_, ?_, ?_, ?_, ?_, ?_, id, ?_⟩ <;> decide +kernel
  stateConsistency := by
    refine ⟨id, ?_, id, ?_, id, ?_, id, fun _ h => lists_of_mem h, ?_⟩ <;> decide +kernel
  environmental := by
    refine ⟨id, fun _ h => lists_of_mem h, ?_, id, ?_, id, ?_, fun _ h => lists_of_mem h, ?_, ?_⟩ <;>
      decide +kernel

theorem testing_relaxes_standard : testing.Relaxes standard where
  rules := by
    refine ⟨id, rfl, id, id, id, id, id, fun _ h => lists_of_mem h, id, id⟩
  systemIntegrity := by
    refine ⟨?_, ?_, ?_, id, ?_, ?_, ?_, ?_, rfl⟩ <;> decide +kernel
  executionSafety := by
    refine ⟨?_, ?_, fun _ h => lists_of_mem h, ?_, ?_, ?_, ?_, ?_, ?_, ?_, id, ?_⟩ <;> decide +kernel
  stateConsistency := by
    refine ⟨id, ?_, ?_, ?_, ?_, ?_, id, fun _ h => lists_of_mem h, ?_⟩ <;> decide +kernel
  environmental := by
    refine ⟨id, fun _ h => lists_of_mem h, ?_, id, ?_, id, ?_, fun _ h => lists_of_mem h, ?_, ?_⟩ <;>
      decide +kernel

end Policy

/-! ## A calm view -/

/-- A view of the system without objections: the data are of the instant, and what may be missing
is. -/
def Sections.calm (requestId : String) (now : Instant) : Sections where
  intent := ⟨requestId, "BTCUSDT", .long, .hundred, now, none⟩
  system := ⟨true, now, none, true, none, none, true⟩
  execution :=
    ⟨true, some "OK", some (.ofNat 0), none, none, none, none, none, none, none, none, none⟩
  halt := ⟨false, none, none, false, none, none, false, none, false, none, none⟩
  account := ⟨none, none, none, none, some .hundred, some "CROSS", none, some now⟩
  market := ⟨none, none, none, none, false, none, none, none, none, none, false, false⟩

/-- The snapshot of the calm view. -/
def Snapshot.calm (requestId : String) (now : Instant) : Snapshot :=
  let s := Sections.calm requestId now
  ⟨some s.intent, some s.system, some s.execution, some s.halt, some s.account, some s.market⟩

theorem Snapshot.sections?_calm (requestId : String) (now : Instant) :
    (Snapshot.calm requestId now).sections? = some (.calm requestId now) := rfl

theorem Instant.ageSeconds_self (now : Instant) : now.ageSeconds now = .ofInt 0 / .ofNat 1000 := by
  have hzero : now.nanosSince now = 0 := by
    unfold nanosSince
    simp
  unfold ageSeconds
  rw [hzero]
  rfl

namespace Binary64

theorem not_above_of_le {x y : Binary64} (h : le x y = true) : ¬ x.Above y := by
  rw [← exceeds_iff, exceeds, h]
  exact Bool.false_ne_true

theorem not_below_of_le {x y : Binary64} (h : le y x = true) : ¬ x.Below y := by
  rw [← fallsBelow_iff, fallsBelow, h]
  exact Bool.false_ne_true

end Binary64

namespace Policy

open Binary64 (not_above_of_le not_below_of_le)

variable (requestId : String) (now : Instant)

theorem strict_calm :
    ∀ condition ∈ strict.standing (.calm requestId now) now, ¬ condition.holds := by
  simp only [standing, RulePolicy.conditions, IntegrityPolicy.conditions,
    ExecutionPolicy.conditions, ConsistencyPolicy.conditions, MarketPolicy.conditions,
    Sections.calm, Instant.ageSeconds_self]
  simp only [List.flatten_cons, List.flatten_nil, List.cons_append, List.nil_append,
    List.append_nil, List.forall_mem_cons, List.not_mem_nil, Option.mem_def, Option.some.injEq,
    exists_eq_left', reduceCtorEq, Bool.false_eq_true, Bool.true_eq_false, false_and, and_false,
    exists_const, not_false_eq_true, ne_eq, not_and, not_not, Bool.not_eq_true, and_true, true_and,
    IsEmpty.forall_iff, implies_true]
  refine ⟨?hours, ?symbol, ?direction, ?stale, ?future, ?old, ?status, ?latency, ?sync, ?balance,
    ?mode⟩
  case hours => exact fun h => nomatch h
  case symbol => exact fun _ ⟨_, h, _⟩ => absurd h List.not_mem_nil
  case direction => rintro (⟨_, h⟩ | ⟨h, _⟩) <;> exact nomatch h
  case stale | old | latency => exact not_above_of_le (by decide +kernel)
  case future => exact not_below_of_le (by decide +kernel)
  case status => exact lists_of_mem (by decide)
  case sync =>
    rw [Instant.ageSeconds_self]
    exact fun _ => not_above_of_le (by decide +kernel)
  case balance => decide +kernel
  case mode => exact fun _ => lists_of_mem (by decide)

theorem standard_calm :
    ∀ condition ∈ standard.standing (.calm requestId now) now, ¬ condition.holds :=
  not_holds_of_implies (implies_of_relaxes _ now standard_relaxes_strict)
    (strict_calm requestId now)

end Policy

end TradeGate
