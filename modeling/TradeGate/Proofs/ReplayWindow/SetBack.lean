import TradeGate.Proofs.ReplayWindow.Sliding

/-!
# A replay window on a clock that is set back

Ids are forgotten from the front of the queue, up to the first one that is within the span. On a
clock that goes back that one may be the id of a later instant, and behind it an id stays that is
older than the span (`Sheltered`). How much older is bounded by how far the clock was set back
(`noneOlder_of_clock`), so that nothing older stays on a clock that never is; on one that is, an id
is refused beyond the span (`not_noneOlder_setBackRequests`).
-/

namespace TradeGate

open Instant (SetBackBy noon minutePastNoon hourPastNoon)

namespace ReplayWindow

/-- No registration refuses an id for an admission that is older than the span by more than `back`,
and none leaves such an admission in the window. -/
structure NoneOlder (back : Nat) (seconds : UInt64) (requests : List Request) : Prop where
  refused : ∀ before id now after, requests = before ++ .register id now :: after →
    ∀ seen, ((behind seconds before).register id now).1 = some seen →
      now.nanosSince seen ≤ (ofSeconds seconds).span + back
  left : ∀ before id now after, requests = before ++ .register id now :: after →
    ∀ entry ∈ (behind seconds (before ++ [.register id now])).queue,
      now.nanosSince entry.2 ≤ (ofSeconds seconds).span + back

/-- Behind a registration, an entry that is older than the span stands behind the first entry, which
is within the span and was admitted at an earlier reading. -/
def Sheltered (seconds : UInt64) (requests : List Request) : Prop :=
  ∀ before id now after, requests = before ++ .register id now :: after →
    ∀ entry ∈ (behind seconds (before ++ [.register id now])).queue,
      (ofSeconds seconds).span < now.nanosSince entry.2 →
        ∃ first, (behind seconds (before ++ [.register id now])).queue.head? = some first ∧
          now.nanosSince first.2 ≤ (ofSeconds seconds).span ∧
          [first.2, entry.2, now].Sublist
            ((before ++ [.register id now]).filterMap Request.reading?)

/-! ## What a registration leaves -/

/-- A registration leaves what is held, and behind it at most its own entry. -/
theorem exists_register_queue (window : ReplayWindow) (id : String) (now : Instant) :
    ∃ own, (window.register id now).2.queue = window.held now ++ own ∧
      ∀ entry ∈ own, entry = (id, now) := by
  cases h : (window.register id now).1 with
  | none => exact ⟨[(id, now)], register_queue h, fun _ => List.mem_singleton.1⟩
  | some seen =>
    refine ⟨[], ?_, fun _ hentry => absurd hentry List.not_mem_nil⟩
    rw [register_snd_of_eq_some h, evict_queue, List.append_nil]

/-- What an id is refused for is still there behind the refusal. -/
theorem mem_queue_behind_of_refused {seconds : UInt64} {before : List Request} {id : String}
    {now seen : Instant} (h : ((behind seconds before).register id now).1 = some seen) :
    (id, seen) ∈ (behind seconds (before ++ [.register id now])).queue := by
  obtain ⟨_, _, hfollows⟩ := exists_follows seconds before
  rw [behind_append_singleton]
  show _ ∈ ((behind seconds before).register id now).2.queue
  rw [register_snd_of_eq_some h, evict_queue]
  exact (register_fst_eq_some_iff hfollows.tracks.consistent).1 h

theorem sheltered (seconds : UInt64) (requests : List Request) : Sheltered seconds requests := by
  intro before id now after hrequests entry hentry hold
  obtain ⟨readings, admitted, hfollows⟩ := exists_follows seconds before
  have hspan := ofSeconds_span_nonneg seconds
  obtain ⟨own, hqueue, hown⟩ := exists_register_queue (behind seconds before) id now
  have hbehind : (behind seconds (before ++ [.register id now])).queue =
      (behind seconds before).held now ++ own := by
    rw [behind_append_singleton]
    exact hqueue
  rw [hbehind] at hentry ⊢
  rcases List.mem_append.1 hentry with hheld | hheld
  · obtain ⟨first, rest, hcons⟩ := List.exists_cons_of_ne_nil (List.ne_nil_of_mem hheld)
    have hfirst := nanosSince_le_of_held_eq_cons hcons
    rw [hfollows.span_eq] at hfirst
    refine ⟨first, by rw [hcons]; rfl, hfirst, ?_⟩
    rw [hcons] at hheld
    rcases List.mem_cons.1 hheld with rfl | hrest
    · omega
    · rw [List.filterMap_append]
      refine (hfollows.tracks.sublist_of_held_eq_cons hcons hrest).trans ?_
      exact hfollows.atReadings.append (List.Sublist.refl [now])
  · rw [hown entry hheld, Instant.nanosSince_self] at hold
    omega

/-! ## The bound -/

theorem noneOlder_of_setBackBy {back : Nat} {seconds : UInt64} {requests : List Request}
    (hclock : SetBackBy back (ofSeconds seconds).span (requests.filterMap Request.reading?)) :
    NoneOlder back seconds requests := by
  have hleft : ∀ before id now after, requests = before ++ .register id now :: after →
      ∀ entry ∈ (behind seconds (before ++ [.register id now])).queue,
        now.nanosSince entry.2 ≤ (ofSeconds seconds).span + back := by
    intro before id now after hrequests entry hentry
    by_cases hold : now.nanosSince entry.2 ≤ (ofSeconds seconds).span
    · omega
    · obtain ⟨first, -, hfirst, hreadings⟩ :=
        sheltered seconds requests before id now after hrequests entry hentry (by omega)
      have hsub : (before ++ [Request.register id now]).Sublist requests := by
        rw [hrequests]
        exact (List.Sublist.refl before).append (List.singleton_sublist.2 List.mem_cons_self)
      exact hclock _ _ _ (hreadings.trans (hsub.filterMap _)) hfirst
  refine ⟨fun before id now after hrequests seen hseen => ?_, hleft⟩
  exact hleft before id now after hrequests (id, seen) (mem_queue_behind_of_refused hseen)

/-- Whatever the clock does, an id stays beyond the span only behind an earlier admission that is
within it, and then by no more than the clock was set back. -/
theorem noneOlder_of_clock (back : Nat) (seconds : UInt64) (requests : List Request) :
    Sheltered seconds requests ∧
    (SetBackBy back (ofSeconds seconds).span (requests.filterMap Request.reading?) →
      NoneOlder back seconds requests) ∧
    ((requests.filterMap Request.reading?).Pairwise
        (fun earlier later => earlier.unixNanos ≤ later.unixNanos + (back : Int)) →
      (∀ now ∈ requests.filterMap Request.reading?, now.isLeap = false) →
      NoneOlder back seconds requests) := by
  refine ⟨sheltered seconds requests, noneOlder_of_setBackBy, fun hback hleap => ?_⟩
  exact noneOlder_of_setBackBy (Instant.setBackBy_of_pairwise _ hback hleap)

/-! ## Sample requests -/

/-- One request ahead of the time, and then two for one id, a little more than a minute apart. -/
def setBackRequests : List Request :=
  [.register "r-2" hourPastNoon, .register "r-1" noon, .register "r-1" minutePastNoon]

/-- An hour is what the window may be behind by after these requests, and nothing on a clock that
only went on. -/
theorem noneOlder_setBackRequests :
    NoneOlder 3600000000000 60 setBackRequests ∧
      NoneOlder 0 60 [.register "r-1" noon, .register "r-1" minutePastNoon] :=
  ⟨(noneOlder_of_clock 3600000000000 60 setBackRequests).2.2 (by decide) (by decide),
    (noneOlder_of_clock 0 60 _).2.2 (by decide) (by decide)⟩

/-- The request ahead of the time keeps the first one for the id in a window of a minute, and the
second one is refused for it after a minute and a second. -/
theorem not_noneOlder_setBackRequests : ¬ NoneOlder 0 60 setBackRequests := by
  intro hnone
  have hfirst : (behind 60 [.register "r-2" hourPastNoon]).queue = [("r-2", hourPastNoon)] :=
    register_queue (register_ofSeconds 60 "r-2" hourPastNoon)
  obtain ⟨_, _, hfollows⟩ := exists_follows 60 [.register "r-2" hourPastNoon]
  have hnew : ((behind 60 [.register "r-2" hourPastNoon]).register "r-1" noon).1 = none :=
    register_fst_eq_none hfollows.tracks.consistent (by rw [hfirst]; decide)
  have hsecond : (behind 60 [.register "r-2" hourPastNoon, .register "r-1" noon]).queue =
      [("r-2", hourPastNoon), ("r-1", noon)] := by
    have hheld : (behind 60 [.register "r-2" hourPastNoon]).held noon =
        [("r-2", hourPastNoon)] := by
      unfold held
      rw [hfirst, hfollows.span_eq]
      decide
    have hqueue := register_queue hnew
    rwa [hheld] at hqueue
  obtain ⟨_, _, hfollows'⟩ := exists_follows 60 [.register "r-2" hourPastNoon, .register "r-1" noon]
  have hseen := hnone.refused [_, _] "r-1" minutePastNoon [] rfl noon
    ((register_fst_eq_some_iff hfollows'.tracks.consistent).2 (by
      unfold held
      rw [hsecond, hfollows'.span_eq]
      decide))
  exact absurd hseen (by decide)

end ReplayWindow

end TradeGate
