import TradeGate.Proofs.ReplayWindow.SetBack

/-!
# A replay window on any clock

What a window keeps to whatever instants it is asked at, also on a clock that jumps back and forth
(`Steadfast`): the queue has each id once, the index has just the pairs of the queue, a refusal
tells the last admission of the id, and an id that was admitted is not admitted again before the
window was cleared or asked at an instant beyond the span. None of this takes the queue for sorted
by time: what an instant that is within the span of an entry finds in the queue it leaves there
(`mem_queue_handle`).
-/

namespace TradeGate

open History (stateBehind)
open Instant (noon hourPastNoon)

namespace ReplayWindow

/-- Behind the requests the id is admitted at `now`. -/
def Admits (seconds : UInt64) (before : List Request) (id : String) (now : Instant) : Prop :=
  ((behind seconds before).register id now).1 = none

/-- The request may take an id that was admitted at `seen` out of a window: it clears the window, or
comes at an instant that is more than the span after `seen`. -/
def Request.Frees (span : Int) (seen : Instant) : Request → Prop
  | register _ now => span < now.nanosSince seen
  | clear => True

/-- What a window keeps to on every clock. -/
structure Steadfast (seconds : UInt64) (requests : List Request) : Prop where
  /-- The ids in the queue are distinct. -/
  ids_nodup : ((behind seconds requests).queue.map Prod.fst).Nodup
  /-- The index holds the ids of the queue with their instants, and nothing else. -/
  index_perm : (behind seconds requests).index.toList.Perm (behind seconds requests).queue
  /-- A refusal tells the instant at which the id was last admitted. -/
  refused_last : ∀ before id now after, requests = before ++ .register id now :: after →
    ∀ seen, ((behind seconds before).register id now).1 = some seen →
      lastAdmitted? id (log seconds before) = some seen
  /-- Since an admission there was a request that frees the id, at the latest that by which the id
  is admitted again. -/
  readmitted_freed : ∀ before id seen between now after,
    requests = before ++ .register id seen :: (between ++ .register id now :: after) →
    Admits seconds before id seen →
    Admits seconds (before ++ .register id seen :: between) id now →
      ∃ request ∈ between ++ [.register id now], request.Frees (ofSeconds seconds).span seen

/-! ## Queue and index -/

theorem nodup_toList (index : Std.HashMap String Instant) : index.toList.Nodup := by
  have hkeys : index.keys.Nodup := Std.HashMap.nodup_keys
  rw [← Std.HashMap.map_fst_toList_eq_keys] at hkeys
  exact hkeys.of_map Prod.fst

theorem IndexedBy.perm {queue : List (String × Instant)} {index : Std.HashMap String Instant}
    (h : IndexedBy queue index) : index.toList.Perm queue := by
  refine (List.perm_ext_iff_of_nodup (nodup_toList index) (h.nodup.of_map Prod.fst)).2 ?_
  rintro ⟨id, seen⟩
  rw [Std.HashMap.mem_toList_iff_getElem?_eq_some, h.getElem?_iff]

theorem consistent_behind (seconds : UInt64) (requests : List Request) :
    (behind seconds requests).Consistent := by
  obtain ⟨_, _, hfollows⟩ := exists_follows seconds requests
  exact hfollows.tracks.consistent

theorem span_behind (seconds : UInt64) (requests : List Request) :
    (behind seconds requests).span = (ofSeconds seconds).span := by
  obtain ⟨_, _, hfollows⟩ := exists_follows seconds requests
  exact hfollows.span_eq

/-! ## The last admission -/

theorem lastAdmitted?_register (seconds : UInt64) (requests : List Request) (id other : String)
    (now : Instant) :
    lastAdmitted? id (log seconds (requests ++ [.register other now])) =
      admission id (lastAdmitted? id (log seconds requests))
        (.register other now, ((behind seconds requests).register other now).1) := by
  rw [log_append_singleton, lastAdmitted?_append_singleton]
  rfl

/-- What is in the queue was last admitted at the instant that stands with it. -/
theorem lastAdmitted?_of_mem_queue (seconds : UInt64) (requests : List Request) {id : String}
    {seen : Instant} (h : (id, seen) ∈ (behind seconds requests).queue) :
    lastAdmitted? id (log seconds requests) = some seen := by
  induction requests using List.reverseRecOn generalizing id seen with
  | nil => exact absurd h List.not_mem_nil
  | append_singleton requests request ih =>
    rw [behind_append_singleton] at h
    cases request with
    | clear => exact absurd h List.not_mem_nil
    | register other now =>
      rw [lastAdmitted?_register]
      cases hanswer : ((behind seconds requests).register other now).1 with
      | some first =>
        have hqueue : (id, seen) ∈ (behind seconds requests).held now := by
          rw [← evict_queue, ← register_snd_of_eq_some hanswer]
          exact h
        exact ih ((List.dropWhile_sublist _).subset hqueue)
      | none =>
        have hqueue : (id, seen) ∈ (behind seconds requests).held now ++ [(other, now)] := by
          rw [← register_queue hanswer]
          exact h
        rcases List.mem_append.1 hqueue with hheld | hown
        · -- an id that is held is not admitted, so this is another one
          have hother : other ≠ id := by
            rintro rfl
            have hseen := (register_fst_eq_some_iff (consistent_behind seconds requests)).2 hheld
            exact nomatch hanswer.symm.trans hseen
          rw [admission, if_neg hother]
          exact ih ((List.dropWhile_sublist _).subset hheld)
        · obtain ⟨rfl, rfl⟩ := Prod.mk.inj (List.mem_singleton.1 hown)
          rw [admission, if_pos rfl]

/-! ## What is not freed stays -/

section Stays

variable {window : ReplayWindow} {id : String} {seen : Instant}

theorem span_handle (request : Request) (window : ReplayWindow) :
    (handle request window).2.span = window.span := by
  cases request with
  | register other now => exact register_span window other now
  | clear => rfl

/-- A request that does not free an entry leaves it in the queue, wherever it stands there. -/
theorem mem_queue_handle {request : Request} (h : (id, seen) ∈ window.queue)
    (hkept : ¬ request.Frees window.span seen) : (id, seen) ∈ (handle request window).2.queue := by
  cases request with
  | clear => exact absurd trivial hkept
  | register other now =>
    obtain ⟨own, hqueue, -⟩ := exists_register_queue window other now
    show (id, seen) ∈ (window.register other now).2.queue
    rw [hqueue]
    exact List.mem_append_left own (mem_held h (Int.not_lt.1 hkept))

theorem mem_queue_stateBehind {requests : List Request} (h : (id, seen) ∈ window.queue)
    (hkept : ∀ request ∈ requests, ¬ request.Frees window.span seen) :
    (id, seen) ∈ (stateBehind handle window requests).queue := by
  induction requests generalizing window with
  | nil => exact h
  | cons request rest ih =>
    rw [List.forall_mem_cons] at hkept
    have hrest : ∀ other ∈ rest, ¬ other.Frees (handle request window).2.span seen := by
      rw [span_handle]
      exact hkept.2
    exact ih (mem_queue_handle h hkept.1) hrest

end Stays

/-- An id that was admitted and not freed since is refused. -/
theorem not_admits_of_kept {seconds : UInt64} {before between : List Request} {id : String}
    {seen now : Instant} (hfirst : Admits seconds before id seen)
    (hkept : ∀ request ∈ between ++ [.register id now],
      ¬ request.Frees (ofSeconds seconds).span seen) :
    ¬ Admits seconds (before ++ .register id seen :: between) id now := by
  rw [List.forall_mem_append, List.forall_mem_singleton] at hkept
  have hadmitted : (id, seen) ∈ (behind seconds (before ++ [.register id seen])).queue := by
    rw [behind_append_singleton]
    show (id, seen) ∈ ((behind seconds before).register id seen).2.queue
    rw [register_queue hfirst]
    exact List.mem_append_right _ (List.mem_singleton.2 rfl)
  have hsplit : behind seconds (before ++ .register id seen :: between) =
      stateBehind handle (behind seconds (before ++ [.register id seen])) between := by
    unfold behind stateBehind
    rw [← List.foldl_append, List.append_assoc, List.singleton_append]
  have hqueue : (id, seen) ∈ (behind seconds (before ++ .register id seen :: between)).queue := by
    rw [hsplit]
    refine mem_queue_stateBehind hadmitted ?_
    rw [span_behind]
    exact hkept.1
  have hin : now.nanosSince seen ≤
      (behind seconds (before ++ .register id seen :: between)).span := by
    rw [span_behind]
    exact Int.not_lt.1 hkept.2
  have hrefused := (register_fst_eq_some_iff (consistent_behind _ _)).2 (mem_held hqueue hin)
  intro hagain
  exact nomatch hrefused.symm.trans hagain

/-- Every window keeps to it, whatever the clock does. -/
theorem steadfast (seconds : UInt64) (requests : List Request) : Steadfast seconds requests where
  ids_nodup := (consistent_behind seconds requests).nodup
  index_perm := (consistent_behind seconds requests).perm
  refused_last := by
    intro before id now after _ seen hseen
    have hheld := (register_fst_eq_some_iff (consistent_behind seconds before)).1 hseen
    exact lastAdmitted?_of_mem_queue seconds before ((List.dropWhile_sublist _).subset hheld)
  readmitted_freed := by
    intro before id seen between now after _ hfirst hagain
    by_contra hnone
    push Not at hnone
    exact not_admits_of_kept hfirst hnone hagain

/-! ## Sample requests -/

/-- An id, another one ahead of the time, and the first one again at its own instant, the clock
having been set back. -/
def aheadRequests : List Request :=
  [.register "r-1" noon, .register "r-2" hourPastNoon, .register "r-1" noon]

/-- The request ahead of the time frees the id, which is then admitted twice at one instant. -/
theorem steadfast_aheadRequests :
    Admits 60 [] "r-1" noon ∧
      Admits 60 [.register "r-1" noon, .register "r-2" hourPastNoon] "r-1" noon ∧
      ∃ request ∈ [.register "r-2" hourPastNoon, .register "r-1" noon],
        Request.Frees (ofSeconds 60).span noon request := by
  have hfirst : Admits 60 [] "r-1" noon := register_ofSeconds 60 "r-1" noon
  have hqueue : (behind 60 [.register "r-1" noon]).queue = [("r-1", noon)] := register_queue hfirst
  have hheld : (behind 60 [.register "r-1" noon]).held hourPastNoon = [] := by
    unfold held
    rw [hqueue, span_behind]
    decide
  have hsecond : ((behind 60 [.register "r-1" noon]).register "r-2" hourPastNoon).1 = none :=
    register_fst_eq_none (consistent_behind _ _) (by rw [hqueue]; decide)
  have hqueue' : (behind 60 [.register "r-1" noon, .register "r-2" hourPastNoon]).queue =
      [("r-2", hourPastNoon)] := by
    have hnext := register_queue hsecond
    rwa [hheld] at hnext
  have hagain : Admits 60 [.register "r-1" noon, .register "r-2" hourPastNoon] "r-1" noon :=
    register_fst_eq_none (consistent_behind _ _) (by rw [hqueue']; decide)
  exact ⟨hfirst, hagain,
    (steadfast 60 aheadRequests).readmitted_freed [] _ _ [_] _ [] rfl hfirst hagain⟩

end ReplayWindow

end TradeGate
