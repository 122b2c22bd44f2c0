import TradeGate.Proofs.ReplayWindow.Basic
import TradeGate.Proofs.Time.Span

/-!
# A replay window and its history

`Tracks` ties a window to the readings of the clock so far and to all that was ever admitted: the
queue is the end of the admissions, and what stands before it was out of the window at some later
reading. Every registration keeps this up. Under an orderly clock it follows that an id is held
exactly if it was admitted within the span (`Tracks.mem_held_iff`).
-/

namespace TradeGate

open Instant (Orderly)

namespace ReplayWindow

/-- The window is what its history of readings and admissions has made of it. -/
structure Tracks (readings : List Instant) (admitted : List (String × Instant))
    (window : ReplayWindow) : Prop where
  consistent : window.Consistent
  /-- Every admission was at a reading, in their order. -/
  atReadings : (admitted.map Prod.snd).Sublist readings
  /-- What is no longer in the queue was out of the window at a later reading. -/
  expired : ∃ gone, admitted = gone ++ window.queue ∧
    ∀ entry ∈ gone, ∃ reading, [entry.2, reading].Sublist readings ∧
      window.span < reading.nanosSince entry.2

theorem tracks_ofSeconds (seconds : UInt64) : Tracks [] [] (ofSeconds seconds) where
  consistent := consistent_ofSeconds seconds
  atReadings := List.Sublist.refl []
  expired := ⟨[], rfl, fun _ h => absurd h List.not_mem_nil⟩

namespace Tracks

variable {readings : List Instant} {admitted : List (String × Instant)} {window : ReplayWindow}

theorem skip (h : Tracks readings admitted window) (now : Instant) :
    Tracks (readings ++ [now]) admitted window := by
  obtain ⟨gone, hadmitted, hgone⟩ := h.expired
  have hlonger : readings.Sublist (readings ++ [now]) := List.sublist_append_left _ _
  refine ⟨h.consistent, h.atReadings.trans hlonger, gone, hadmitted, ?_⟩
  intro entry hentry
  obtain ⟨reading, hreading, hout⟩ := hgone entry hentry
  exact ⟨reading, hreading.trans hlonger, hout⟩

theorem pair_sublist (h : Tracks readings admitted window) {entry : String × Instant}
    (hentry : entry ∈ admitted) (now : Instant) : [entry.2, now].Sublist (readings ++ [now]) := by
  have hone : [entry.2].Sublist readings :=
    (List.singleton_sublist.2 (List.mem_map_of_mem hentry)).trans h.atReadings
  exact hone.append (List.Sublist.refl [now])

/-- What is gone after the eviction of another reading. -/
theorem evict (h : Tracks readings admitted window) (now : Instant) :
    Tracks (readings ++ [now]) admitted (window.evict now) := by
  obtain ⟨gone, hadmitted, hgone⟩ := (h.skip now).expired
  obtain ⟨more, hqueue, hmore⟩ := window.queue_eq_append_held now
  refine ⟨h.consistent.evict now, (h.skip now).atReadings, gone ++ more, ?_, ?_⟩
  · rw [evict_queue, List.append_assoc, ← hqueue]
    exact hadmitted
  · intro entry hentry
    rcases List.mem_append.1 hentry with hentry | hentry
    · exact hgone entry hentry
    · refine ⟨now, h.pair_sublist ?_ now, hmore entry hentry⟩
      rw [hadmitted, hqueue]
      exact List.mem_append_right _ (List.mem_append_left _ hentry)

theorem register_of_eq_some (h : Tracks readings admitted window) {id : String} {now seen : Instant}
    (hseen : (window.register id now).1 = some seen) :
    Tracks (readings ++ [now]) admitted (window.register id now).2 := by
  rw [register_snd_of_eq_some hseen]
  exact h.evict now

theorem register_of_eq_none (h : Tracks readings admitted window) {id : String} {now : Instant}
    (hnew : (window.register id now).1 = none) :
    Tracks (readings ++ [now]) (admitted ++ [(id, now)]) (window.register id now).2 := by
  obtain ⟨gone, hadmitted, hgone⟩ := (h.evict now).expired
  refine ⟨h.consistent.register id now, ?_, gone, ?_, ?_⟩
  · rw [List.map_append]
    exact h.atReadings.append (List.Sublist.refl [now])
  · rw [register_snd_of_eq_none hnew, hadmitted, evict_queue, List.append_assoc]
  · rw [register_span]
    exact hgone

/-- What is held stands in the order of admission. -/
theorem held_sublist (h : Tracks readings admitted window) (now : Instant) :
    (window.held now).Sublist admitted := by
  obtain ⟨gone, hadmitted, -⟩ := h.expired
  rw [hadmitted]
  exact (List.dropWhile_sublist _).trans (List.sublist_append_right gone window.queue)

/-- What is held behind the first entry was admitted at a later reading. -/
theorem sublist_of_held_eq_cons (h : Tracks readings admitted window) {now : Instant}
    {first entry : String × Instant} {rest : List (String × Instant)}
    (hcons : window.held now = first :: rest) (hrest : entry ∈ rest) :
    [first.2, entry.2, now].Sublist (readings ++ [now]) := by
  have hheld : [first, entry].Sublist (window.held now) := by
    rw [hcons]
    exact (List.singleton_sublist.2 hrest).cons_cons first
  have hpair := hheld.trans (h.held_sublist now)
  exact ((hpair.map Prod.snd).trans h.atReadings).append (List.Sublist.refl [now])

/-- Under an orderly clock an entry is held exactly if it was admitted within the span. -/
theorem mem_held_iff (h : Tracks readings admitted window) {now : Instant}
    (horder : Orderly window.span (readings ++ [now])) (entry : String × Instant) :
    entry ∈ window.held now ↔
      entry ∈ admitted ∧ now.nanosSince entry.2 ≤ window.span := by
  obtain ⟨gone, hadmitted, hgone⟩ := h.expired
  obtain ⟨more, hqueue, hmore⟩ := window.queue_eq_append_held now
  constructor
  · intro hheld
    refine ⟨(h.held_sublist now).subset hheld, ?_⟩
    obtain ⟨first, rest, hcons⟩ := List.exists_cons_of_ne_nil (List.ne_nil_of_mem hheld)
    have hfirst := nanosSince_le_of_held_eq_cons hcons
    rw [hcons] at hheld
    rcases List.mem_cons.1 hheld with rfl | hrest
    · exact hfirst
    · -- the first entry came before this one, so this one is no older
      exact (horder _ _ _ (h.sublist_of_held_eq_cons hcons hrest)).2 hfirst
  · rintro ⟨hmem, hin⟩
    rw [hadmitted, hqueue] at hmem
    rcases List.mem_append.1 hmem with hmem | hmem
    · -- once out of the window, always out of it
      obtain ⟨reading, hreading, hout⟩ := hgone entry hmem
      have hlater := (horder _ _ _ (hreading.append (List.Sublist.refl [now]))).1 hout
      exact absurd hin (by omega)
    · rcases List.mem_append.1 hmem with hmem | hmem
      · exact absurd hin (by have := hmore entry hmem; omega)
      · exact hmem

/-- Under an orderly clock no admission is held that is older than the span. -/
theorem not_holdsOld (h : Tracks readings admitted window) {now : Instant}
    (horder : Orderly window.span (readings ++ [now])) (id : String) : ¬ window.HoldsOld id now := by
  rintro ⟨seen, hheld, hold⟩
  exact Int.not_le.2 hold ((h.mem_held_iff horder (id, seen)).1 hheld).2

/-- Under an orderly clock an id is refused exactly if it was admitted within the span. -/
theorem register_isSome_iff (h : Tracks readings admitted window) {now : Instant}
    (horder : Orderly window.span (readings ++ [now])) (id : String) :
    (window.register id now).1.isSome = true ↔
      ∃ seen, (id, seen) ∈ admitted ∧ now.nanosSince seen ≤ window.span := by
  rw [Option.isSome_iff_exists]
  refine exists_congr fun seen => ?_
  rw [register_fst_eq_some_iff h.consistent]
  exact h.mem_held_iff horder (id, seen)

end Tracks

end ReplayWindow

end TradeGate
