import Mathlib.Data.Set.Card
import TradeGate.Proofs.History
import TradeGate.Proofs.ReplayWindow.History

/-!
# A replay window against its whole history

`ReplayWindow.Sliding` says what a window answers and how much it holds, by nothing but the requests
so far and the answers to them: an id is refused exactly if it was last admitted within the span,
and the ids held are those. The window keeps this up under every clock that is orderly for its span;
one that reads inside a leap second need not be.
-/

namespace TradeGate

open History (answered stateBehind)
open Instant (Orderly beforeLeap withinLeap afterLeap)

namespace ReplayWindow

/-- What a caller asks of a window. -/
inductive Request where
  | register (id : String) (now : Instant)
  | clear

/-- The reading of the clock that a request brings. -/
def Request.reading? : Request → Option Instant
  | register _ now => some now
  | clear => none

/-- The answer to a request and the window behind it. A clearing is not answered. -/
def handle : Request → ReplayWindow → Option Instant × ReplayWindow
  | .register id now, window => window.register id now
  | .clear, window => (none, window.clear)

/-- The requests to a new window, each with its answer. -/
def log (seconds : UInt64) (requests : List Request) : List (Request × Option Instant) :=
  answered handle (ofSeconds seconds) requests

/-- The window behind requests. -/
def behind (seconds : UInt64) (requests : List Request) : ReplayWindow :=
  stateBehind handle (ofSeconds seconds) requests

/-- When an id was last admitted, after what was known of it before a request. A refusal changes
nothing, and a clearing forgets. -/
def admission (id : String) (last : Option Instant) : Request × Option Instant → Option Instant
  | (.clear, _) => none
  | (.register other now, none) => if other = id then some now else last
  | (.register _ _, some _) => last

/-- When an id was last admitted since the last clearing. -/
def lastAdmitted? (id : String) (entries : List (Request × Option Instant)) : Option Instant :=
  entries.foldl (admission id) none

/-- The window is the set of the ids that were last admitted within its span. -/
structure Sliding (seconds : UInt64) (requests : List Request) : Prop where
  /-- An id is refused exactly if it was last admitted within the span, and then with the instant of
  that admission. -/
  answer_eq : ∀ before id now after, requests = before ++ .register id now :: after →
    ∀ seen, ((behind seconds before).register id now).1 = some seen ↔
      lastAdmitted? id (log seconds before) = some seen ∧
        now.nanosSince seen ≤ seconds.toNat * nanosPerSecond
  /-- After a registration the window holds as many ids as were last admitted within the span. -/
  size_eq : ∀ before id now after, requests = before ++ .register id now :: after →
    ((behind seconds (before ++ [.register id now])).size : ℕ∞) =
      Set.encard {other | ∃ seen,
        lastAdmitted? other (log seconds (before ++ [.register id now])) = some seen ∧
          now.nanosSince seen ≤ seconds.toNat * nanosPerSecond}

/-! ## How much is held -/

/-- The index holds as many ids as the queue. -/
theorem IndexedBy.size_eq {queue : List (String × Instant)} {index : Std.HashMap String Instant}
    (h : IndexedBy queue index) : index.size = queue.length := by
  have hperm : index.keys.Perm (queue.map Prod.fst) := by
    apply (List.perm_ext_iff_of_nodup Std.HashMap.nodup_keys h.nodup).2
    intro id
    have hnone := h.getElem?_eq_none_iff id
    rw [Std.HashMap.mem_keys, Std.HashMap.mem_iff_isSome_getElem?]
    by_cases hmem : id ∈ queue.map Prod.fst
    · have hsome : index[id]? ≠ none := fun heq => hnone.1 heq hmem
      simp [hmem, Option.isSome_iff_ne_none.2 hsome]
    · simp [hmem, hnone.2 hmem]
  rw [← Std.HashMap.length_keys, hperm.length_eq, List.length_map]

theorem Consistent.size_eq {window : ReplayWindow} (h : window.Consistent) :
    window.size = window.queue.length :=
  IndexedBy.size_eq h

/-- A queue holds its ids once each. -/
theorem encard_ids {window : ReplayWindow} (h : window.Consistent) :
    ((window.size : ℕ) : ℕ∞) = Set.encard {id | ∃ seen, (id, seen) ∈ window.queue} := by
  have hset : {id | ∃ seen, (id, seen) ∈ window.queue} =
      ((window.queue.map Prod.fst).toFinset : Set String) := by
    ext id
    simp
  rw [hset, Set.encard_coe_eq_coe_finsetCard, List.toFinset_card_of_nodup h.nodup,
    List.length_map, h.size_eq]

/-! ## The last admission -/

theorem lastAdmitted?_append_singleton (id : String) (entries : List (Request × Option Instant))
    (entry : Request × Option Instant) :
    lastAdmitted? id (entries ++ [entry]) = admission id (lastAdmitted? id entries) entry := by
  simp [lastAdmitted?]

theorem log_append_singleton (seconds : UInt64) (requests : List Request) (request : Request) :
    log seconds (requests ++ [request]) =
      log seconds requests ++ [(request, (handle request (behind seconds requests)).1)] :=
  History.answered_append_singleton handle _ _ _

theorem behind_append_singleton (seconds : UInt64) (requests : List Request) (request : Request) :
    behind seconds (requests ++ [request]) = (handle request (behind seconds requests)).2 :=
  History.stateBehind_append_singleton handle _ _ _

/-- The last admission of an id in a list of admissions. -/
def lastOf? (id : String) (admitted : List (String × Instant)) : Option Instant :=
  (admitted.filter (·.1 = id)).getLast?.map Prod.snd

theorem lastOf?_append_self (id : String) (now : Instant) (admitted : List (String × Instant)) :
    lastOf? id (admitted ++ [(id, now)]) = some now := by
  simp [lastOf?]

theorem lastOf?_append_of_ne {id other : String} (h : other ≠ id) (now : Instant)
    (admitted : List (String × Instant)) :
    lastOf? id (admitted ++ [(other, now)]) = lastOf? id admitted := by
  simp [lastOf?, h]

/-- The last admission of an id comes after all the others of that id. -/
theorem lastOf?_eq_some {id : String} {admitted : List (String × Instant)} {seen : Instant}
    (h : lastOf? id admitted = some seen) :
    (id, seen) ∈ admitted ∧ ∀ time, (id, time) ∈ admitted →
      time = seen ∨ [(id, time), (id, seen)].Sublist admitted := by
  unfold lastOf? at h
  obtain ⟨⟨other, time⟩, hlast, rfl⟩ := Option.map_eq_some_iff.1 h
  have hfilter := (List.mem_filter.1 (List.mem_of_getLast? hlast)).2
  obtain rfl : other = id := by simpa using hfilter
  obtain ⟨before, hbefore⟩ := List.getLast?_eq_some_iff.1 hlast
  have hsub : (before ++ [(other, time)]).Sublist admitted := hbefore ▸ List.filter_sublist
  refine ⟨hsub.subset (by simp), fun earlier hmem => ?_⟩
  have hin : (other, earlier) ∈ admitted.filter (·.1 = other) := by simp [hmem]
  rw [hbefore, List.mem_append, List.mem_singleton] at hin
  rcases hin with hin | hin
  · right
    exact ((List.singleton_sublist.2 hin).append (List.Sublist.refl [(other, time)])).trans hsub
  · left
    exact congrArg Prod.snd hin

/-! ## The invariant -/

/-- Since the last clearing, the window is what readings and admissions have made of it. -/
structure Follows (seconds : UInt64) (requests : List Request) (readings : List Instant)
    (admitted : List (String × Instant)) : Prop where
  tracks : Tracks readings admitted (behind seconds requests)
  span_eq : (behind seconds requests).span = (ofSeconds seconds).span
  atReadings : readings.Sublist (requests.filterMap Request.reading?)
  last_eq : ∀ id, lastAdmitted? id (log seconds requests) = lastOf? id admitted

theorem tracks_clear (window : ReplayWindow) : Tracks [] [] window.clear where
  consistent := consistent_clear window
  atReadings := List.Sublist.refl []
  expired := ⟨[], rfl, by simp⟩

/-- What is known of the admissions after a registration. -/
theorem Follows.register {seconds : UInt64} {requests : List Request} {readings : List Instant}
    {admitted : List (String × Instant)} (h : Follows seconds requests readings admitted)
    (id : String) (now : Instant) :
    Follows seconds (requests ++ [.register id now]) (readings ++ [now])
      (if ((behind seconds requests).register id now).1 = none then admitted ++ [(id, now)]
        else admitted) := by
  have hreadings : (readings ++ [now]).Sublist
      ((requests ++ [Request.register id now]).filterMap Request.reading?) := by
    rw [List.filterMap_append]
    exact h.atReadings.append (List.Sublist.refl [now])
  have hspan : (behind seconds (requests ++ [.register id now])).span = (ofSeconds seconds).span := by
    rw [behind_append_singleton, ← h.span_eq]
    exact register_span _ _ _
  refine ⟨?_, hspan, hreadings, fun other => ?_⟩
  · rw [behind_append_singleton]
    cases hanswer : ((behind seconds requests).register id now).1 with
    | none =>
      rw [if_pos rfl]
      exact h.tracks.register_of_eq_none hanswer
    | some seen =>
      rw [if_neg (by simp)]
      exact h.tracks.register_of_eq_some hanswer
  · rw [log_append_singleton, lastAdmitted?_append_singleton, h.last_eq]
    show admission other _ (Request.register id now,
      ((behind seconds requests).register id now).1) = _
    cases hanswer : ((behind seconds requests).register id now).1 with
    | none =>
      by_cases hid : id = other
      · subst hid
        simp [admission, lastOf?_append_self]
      · simp [admission, hid, lastOf?_append_of_ne hid]
    | some seen => simp [admission]

/-- However the requests went, some readings and admissions account for the window. -/
theorem exists_follows (seconds : UInt64) (requests : List Request) :
    ∃ readings admitted, Follows seconds requests readings admitted := by
  induction requests using List.reverseRecOn with
  | nil => exact ⟨[], [], tracks_ofSeconds seconds, rfl, List.Sublist.refl [], fun _ => rfl⟩
  | append_singleton requests request ih =>
    obtain ⟨readings, admitted, h⟩ := ih
    cases request with
    | register id now => exact ⟨_, _, h.register id now⟩
    | clear =>
      refine ⟨[], [], ?_, ?_, List.nil_sublist _, fun id => ?_⟩
      · rw [behind_append_singleton]
        exact tracks_clear _
      · rw [behind_append_singleton, ← h.span_eq]
        rfl
      · rw [log_append_singleton, lastAdmitted?_append_singleton]
        rfl

theorem ofSeconds_span_nonneg (seconds : UInt64) : 0 ≤ (ofSeconds seconds).span := by
  unfold ofSeconds nanosPerSecond
  dsimp only
  omega

section Orderly

variable {seconds : UInt64} {requests : List Request} {readings : List Instant}
  {admitted : List (String × Instant)} {now : Instant}

/-- Under an orderly clock an entry is held exactly if it is the last admission of its id and within
the span. -/
theorem Follows.mem_held_iff (h : Follows seconds requests readings admitted)
    (horder : Orderly (ofSeconds seconds).span (readings ++ [now])) (id : String) (seen : Instant) :
    (id, seen) ∈ (behind seconds requests).held now ↔
      lastAdmitted? id (log seconds requests) = some seen ∧
        now.nanosSince seen ≤ (ofSeconds seconds).span := by
  rw [← h.span_eq] at horder ⊢
  rw [h.last_eq, h.tracks.mem_held_iff horder]
  constructor
  · rintro ⟨hmem, hin⟩
    refine ⟨?_, hin⟩
    obtain ⟨last, hlast⟩ : ∃ last, lastOf? id admitted = some last := by
      have hfilter : (id, seen) ∈ admitted.filter (·.1 = id) := by simp [hmem]
      unfold lastOf?
      rw [List.getLast?_eq_some_getLast (List.ne_nil_of_mem hfilter)]
      exact ⟨_, rfl⟩
    obtain ⟨hlastmem, hlater⟩ := lastOf?_eq_some hlast
    rcases hlater seen hmem with rfl | hpair
    · exact hlast
    · -- the later admission is within the span too, and an id is held once
      have htimes := ((hpair.map Prod.snd).trans h.tracks.atReadings).append
        (List.Sublist.refl [now])
      have hlastin := (horder _ _ _ htimes).2 hin
      have hfirst := (h.tracks.mem_held_iff horder (id, seen)).2 ⟨hmem, hin⟩
      have hsecond := (h.tracks.mem_held_iff horder (id, last)).2 ⟨hlastmem, hlastin⟩
      have hfirst' := (register_fst_eq_some_iff h.tracks.consistent).2 hfirst
      have hsecond' := (register_fst_eq_some_iff h.tracks.consistent).2 hsecond
      rw [hlast, ← hsecond', hfirst']
  · rintro ⟨hlast, hin⟩
    exact ⟨(lastOf?_eq_some hlast).1, hin⟩

/-- Under an orderly clock the ids that are held after a registration are those that were last
admitted within the span. -/
theorem Follows.mem_queue_iff (h : Follows seconds requests readings admitted)
    (horder : Orderly (ofSeconds seconds).span (readings ++ [now])) (id other : String) :
    (∃ seen, (other, seen) ∈ (behind seconds (requests ++ [.register id now])).queue) ↔
      ∃ seen, lastAdmitted? other (log seconds (requests ++ [.register id now])) = some seen ∧
        now.nanosSince seen ≤ (ofSeconds seconds).span := by
  have hheld := h.mem_held_iff horder
  rw [behind_append_singleton, log_append_singleton, lastAdmitted?_append_singleton]
  show (∃ seen, (other, seen) ∈ ((behind seconds requests).register id now).2.queue) ↔
    ∃ seen, admission other _ (.register id now, ((behind seconds requests).register id now).1) =
      some seen ∧ _
  cases hanswer : ((behind seconds requests).register id now).1 with
  | some first =>
    simp only [register_snd_of_eq_some hanswer, evict_queue, hheld, admission]
  | none =>
    rw [register_queue hanswer]
    by_cases hid : id = other
    · subst hid
      constructor
      · intro
        refine ⟨now, by simp [admission], ?_⟩
        rw [Instant.nanosSince_self]
        exact ofSeconds_span_nonneg seconds
      · intro
        exact ⟨now, by simp⟩
    · have hne : ¬ other = id := fun heq => hid heq.symm
      simp [hheld, admission, hid, hne]

end Orderly

/-! ## The law -/

theorem ofSeconds_span {seconds : UInt64} (h : seconds.toNat ≤ maxSeconds) :
    (ofSeconds seconds).span = seconds.toNat * nanosPerSecond := by
  unfold ofSeconds
  simp [Nat.min_eq_left h]

theorem sliding_of_orderly {seconds : UInt64} (hseconds : seconds.toNat ≤ maxSeconds)
    {requests : List Request}
    (horder : Orderly (seconds.toNat * nanosPerSecond) (requests.filterMap Request.reading?)) :
    Sliding seconds requests := by
  rw [← ofSeconds_span hseconds] at horder
  -- the readings up to a registration, among them those since the last clearing
  have hsplit : ∀ before id now after, requests = before ++ .register id now :: after →
      ∀ {readings admitted}, Follows seconds before readings admitted →
        Orderly (ofSeconds seconds).span (readings ++ [now]) := by
    intro before id now after hrequests readings admitted hfollows
    apply horder.sublist
    rw [hrequests, List.filterMap_append]
    apply hfollows.atReadings.append
    simp [Request.reading?]
  refine ⟨fun before id now after hrequests seen => ?_, fun before id now after hrequests => ?_⟩
  · obtain ⟨readings, admitted, hfollows⟩ := exists_follows seconds before
    have hreadings := hsplit before id now after hrequests hfollows
    rw [register_fst_eq_some_iff hfollows.tracks.consistent, hfollows.mem_held_iff hreadings,
      ofSeconds_span hseconds]
  · obtain ⟨readings, admitted, hfollows⟩ := exists_follows seconds before
    have hreadings := hsplit before id now after hrequests hfollows
    have hafter := hfollows.register id now
    rw [encard_ids hafter.tracks.consistent]
    congr 1
    ext other
    rw [Set.mem_ofPred_eq, Set.mem_ofPred_eq, hfollows.mem_queue_iff hreadings,
      ofSeconds_span hseconds]

/-- Under every clock that is orderly for the span, and so under every clock that does not go back
and does not read inside a leap second, a window is the set of the ids that were last admitted
within its span. -/
theorem sliding_of_clock (seconds : UInt64) (hseconds : seconds.toNat ≤ maxSeconds)
    (requests : List Request) :
    (Orderly (seconds.toNat * nanosPerSecond) (requests.filterMap Request.reading?) →
      Sliding seconds requests) ∧
    ((requests.filterMap Request.reading?).Pairwise (· ≤ ·) →
      (∀ now ∈ requests.filterMap Request.reading?, now.isLeap = false) →
      Sliding seconds requests) := by
  refine ⟨sliding_of_orderly hseconds, fun hsorted hleap => ?_⟩
  exact sliding_of_orderly hseconds (Instant.orderly_of_pairwise _ hsorted hleap)

/-! ## Sample requests -/

/-- A new window admits what it is asked first. -/
theorem register_ofSeconds (seconds : UInt64) (id : String) (now : Instant) :
    ((ofSeconds seconds).register id now).1 = none :=
  register_fst_eq_none (consistent_ofSeconds seconds) (by simp [ofSeconds])

theorem log_singleton (seconds : UInt64) (id : String) (now : Instant) :
    log seconds [.register id now] = [(.register id now, none)] := by
  rw [← register_ofSeconds seconds id now]
  rfl

/-- An id twice at one instant, and again after a clearing. -/
def sampleRequests : List Request :=
  [.register "r-1" .epoch, .register "r-1" .epoch, .clear, .register "r-1" .epoch]

theorem sliding_sampleRequests :
    Sliding 60 sampleRequests ∧
      ((behind 60 [.register "r-1" .epoch]).register "r-1" .epoch).1 = some .epoch := by
  have hsorted : (sampleRequests.filterMap Request.reading?).Pairwise (· ≤ ·) := by decide
  have hleap : ∀ now ∈ sampleRequests.filterMap Request.reading?, now.isLeap = false := by decide
  have hsliding := (sliding_of_clock 60 (by decide) sampleRequests).2 hsorted hleap
  refine ⟨hsliding, (hsliding.answer_eq [_] _ _ _ rfl _).2 ⟨?_, by decide⟩⟩
  rw [log_singleton]
  rfl

/-- Two requests for one id, as far apart as the window is wide, and between them one inside a leap
second. -/
def leapRequests : List Request :=
  [.register "r-1" beforeLeap, .register "r-2" withinLeap, .register "r-1" afterLeap]

/-- The request inside the leap second makes the window forget the first one too early, although the
clock never goes back. -/
theorem not_sliding_leapRequests :
    (leapRequests.filterMap Request.reading?).Pairwise (· ≤ ·) ∧ ¬ Sliding 3600 leapRequests := by
  refine ⟨by decide, fun hsliding => ?_⟩
  have hfirst := log_singleton 3600 "r-1" beforeLeap
  have hqueue : (behind 3600 [.register "r-1" beforeLeap]).queue = [("r-1", beforeLeap)] :=
    register_queue (register_ofSeconds 3600 "r-1" beforeLeap)
  have hspan : (behind 3600 [.register "r-1" beforeLeap]).span = 3600 * nanosPerSecond :=
    register_span _ _ _
  have hsecond : ((behind 3600 [.register "r-1" beforeLeap]).register "r-2" withinLeap).1 = none := by
    rw [Option.eq_none_iff_forall_ne_some]
    intro seen hseen
    have hlast := ((hsliding.answer_eq [_] "r-2" withinLeap [_] rfl seen).1 hseen).1
    rw [hfirst] at hlast
    exact absurd hlast (by simp [lastAdmitted?, admission])
  -- the first id is not held any more, and still it was last admitted within the span
  have hqueue' : (behind 3600 [.register "r-1" beforeLeap, .register "r-2" withinLeap]).queue =
      [("r-2", withinLeap)] := by
    have hgone : (behind 3600 [.register "r-1" beforeLeap]).held withinLeap = [] := by
      unfold held
      rw [hqueue, hspan]
      decide
    have hnext := register_queue hsecond
    rwa [hgone] at hnext
  have hlast : lastAdmitted? "r-1"
      (log 3600 [.register "r-1" beforeLeap, .register "r-2" withinLeap]) = some beforeLeap := by
    have hlog := log_append_singleton 3600 [.register "r-1" beforeLeap] (.register "r-2" withinLeap)
    rw [List.singleton_append] at hlog
    rw [hlog, hfirst, List.singleton_append]
    show lastAdmitted? "r-1" [_, (Request.register "r-2" withinLeap, _)] = _
    rw [show (handle (.register "r-2" withinLeap) (behind 3600 [.register "r-1" beforeLeap])).1 =
      none from hsecond]
    simp [lastAdmitted?, admission]
  obtain ⟨_, _, hfollows⟩ := exists_follows 3600
    [.register "r-1" beforeLeap, .register "r-2" withinLeap]
  have hanswer := (hsliding.answer_eq [_, _] "r-1" afterLeap [] rfl beforeLeap).2
    ⟨hlast, by decide⟩
  rw [register_fst_eq_some_iff hfollows.tracks.consistent] at hanswer
  have hmem := (List.dropWhile_sublist _).subset hanswer
  rw [hqueue'] at hmem
  exact absurd hmem (by decide)

end ReplayWindow

end TradeGate
