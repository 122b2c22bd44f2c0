import TradeGate.ReplayWindow

/-!
# What a replay window holds

The queue of a window is what counts; the index has to agree with it (`Consistent`), and every
operation keeps it so. To register an id is then to look for it in `held`, the queue without what
has expired at its front (`register_fst_eq_some_iff`), and to append it if it is not there. What is
within the span is held wherever it stands (`mem_held`); what is older may be held too, behind
something that is not (`HoldsOld`).
-/

namespace TradeGate

namespace ReplayWindow

/-- The entry is older than the span. -/
def isExpired (span : Int) (now : Instant) (entry : String × Instant) : Bool :=
  span < now.nanosSince entry.2

/-- The queue without the entries that are forgotten at `now`: from the front on, as long as they
are older than the span. -/
def held (window : ReplayWindow) (now : Instant) : List (String × Instant) :=
  window.queue.dropWhile (isExpired window.span now)

/-- An admission of the id is held that is older than the span. -/
def HoldsOld (window : ReplayWindow) (id : String) (now : Instant) : Prop :=
  ∃ seen, (id, seen) ∈ window.held now ∧ window.span < now.nanosSince seen

/-- Every id stands once in the queue, and the index finds just what the queue has. -/
structure IndexedBy (queue : List (String × Instant)) (index : Std.HashMap String Instant) :
    Prop where
  nodup : (queue.map Prod.fst).Nodup
  getElem?_iff : ∀ id seen, index[id]? = some seen ↔ (id, seen) ∈ queue

/-- The index of the window agrees with its queue. -/
def Consistent (window : ReplayWindow) : Prop := IndexedBy window.queue window.index

/-! ## Agreement of queue and index -/

theorem indexedBy_nil : IndexedBy [] ∅ where
  nodup := List.nodup_nil
  getElem?_iff := by simp

namespace IndexedBy

variable {queue : List (String × Instant)} {index : Std.HashMap String Instant}

theorem getElem?_eq_none_iff (h : IndexedBy queue index) (id : String) :
    index[id]? = none ↔ id ∉ queue.map Prod.fst := by
  rw [Option.eq_none_iff_forall_ne_some]
  constructor
  · intro hnone hmem
    obtain ⟨⟨_, seen⟩, hentry, rfl⟩ := List.mem_map.1 hmem
    exact hnone seen ((h.getElem?_iff _ seen).2 hentry)
  · intro hnot seen hsome
    exact hnot (List.mem_map_of_mem ((h.getElem?_iff id seen).1 hsome))

/-- Forgetting the id at the front of the queue. -/
theorem erase {id : String} {seen : Instant} (h : IndexedBy ((id, seen) :: queue) index) :
    IndexedBy queue (index.erase id) := by
  obtain ⟨hid, hnodup⟩ := List.nodup_cons.1 h.nodup
  refine ⟨hnodup, fun other time => ?_⟩
  rw [Std.HashMap.getElem?_erase]
  by_cases hother : id = other
  · subst hother
    rw [if_pos (beq_self_eq_true id)]
    exact iff_of_false (fun h => nomatch h) fun hmem => hid (List.mem_map.2 ⟨_, hmem, rfl⟩)
  · rw [if_neg (by simpa using hother), h.getElem?_iff, List.mem_cons]
    refine or_iff_right fun heq => hother ?_
    exact (congrArg Prod.fst heq).symm

/-- Recording a new id at the end of the queue. -/
theorem insert {id : String} (h : IndexedBy queue index) (hnew : index[id]? = none)
    (seen : Instant) : IndexedBy (queue ++ [(id, seen)]) (index.insert id seen) := by
  have hid : id ∉ queue.map Prod.fst := (h.getElem?_eq_none_iff id).1 hnew
  refine ⟨?_, fun other time => ?_⟩
  · rw [List.map_append, List.nodup_append]
    refine ⟨h.nodup, by simp, ?_⟩
    intro other hother last hlast
    rw [List.map_singleton, List.mem_singleton] at hlast
    rintro rfl
    rw [hlast] at hother
    exact hid hother
  · rw [Std.HashMap.getElem?_insert, List.mem_append, List.mem_singleton, Prod.mk.injEq]
    by_cases hother : id = other
    · subst hother
      rw [if_pos (beq_self_eq_true id)]
      constructor
      · intro h
        exact Or.inr ⟨rfl, (Option.some.inj h).symm⟩
      · rintro (hmem | ⟨-, rfl⟩)
        · exact absurd (List.mem_map.2 ⟨_, hmem, rfl⟩) hid
        · rfl
    · rw [if_neg (by simpa using hother), h.getElem?_iff]
      exact (or_iff_left fun heq => hother heq.1.symm).symm

end IndexedBy

theorem expire_fst (span : Int) (now : Instant) (queue : List (String × Instant))
    (index : Std.HashMap String Instant) :
    (expire span now queue index).1 = queue.dropWhile (isExpired span now) := by
  induction queue generalizing index with
  | nil => rfl
  | cons entry rest ih =>
    obtain ⟨id, seen⟩ := entry
    by_cases h : now.nanosSince seen ≤ span
    · have hfresh : isExpired span now (id, seen) = false := by simpa [isExpired] using h
      rw [expire, if_pos h, List.dropWhile_cons, hfresh]
      rfl
    · have hold : isExpired span now (id, seen) = true := by simpa [isExpired] using h
      rw [expire, if_neg h, List.dropWhile_cons, hold]
      exact ih _

theorem indexedBy_expire (span : Int) (now : Instant) {queue : List (String × Instant)}
    {index : Std.HashMap String Instant} (h : IndexedBy queue index) :
    IndexedBy (expire span now queue index).1 (expire span now queue index).2 := by
  induction queue generalizing index with
  | nil => exact h
  | cons entry rest ih =>
    obtain ⟨id, seen⟩ := entry
    rw [expire]
    split
    · exact h
    · exact ih h.erase

/-! ## What is held -/

section Held

variable {window : ReplayWindow} {id : String} {seen now : Instant}

/-- The queue is what expires at an instant and, behind it, what is held. -/
theorem queue_eq_append_held (window : ReplayWindow) (now : Instant) :
    ∃ gone, window.queue = gone ++ window.held now ∧
      ∀ entry ∈ gone, window.span < now.nanosSince entry.2 := by
  refine ⟨_, List.takeWhile_append_dropWhile.symm, fun entry hmem => ?_⟩
  simpa [isExpired] using List.all_eq_true.1 List.all_takeWhile entry hmem

/-- The first entry that is held is within the span. -/
theorem nanosSince_le_of_held_eq_cons {first : String × Instant} {rest : List (String × Instant)}
    (h : window.held now = first :: rest) : now.nanosSince first.2 ≤ window.span := by
  have := List.head?_dropWhile_not (isExpired window.span now) window.queue
  unfold held at h
  rw [h, List.head?_cons] at this
  simpa [isExpired] using this

theorem mem_held (h : (id, seen) ∈ window.queue) (hin : now.nanosSince seen ≤ window.span) :
    (id, seen) ∈ window.held now := by
  obtain ⟨gone, hqueue, hgone⟩ := window.queue_eq_append_held now
  rw [hqueue] at h
  rcases List.mem_append.1 h with hout | hheld
  · exact absurd (hgone _ hout) (by dsimp only; omega)
  · exact hheld

/-- Where no older admission of the id is held, those within the span are held and no others. -/
theorem mem_held_iff_of_not_holdsOld (h : ¬ window.HoldsOld id now) :
    (id, seen) ∈ window.held now ↔
      (id, seen) ∈ window.queue ∧ now.nanosSince seen ≤ window.span := by
  refine ⟨fun hheld => ⟨(List.dropWhile_sublist _).subset hheld, ?_⟩, fun hin => mem_held hin.1 hin.2⟩
  exact Int.not_lt.1 fun hold => h ⟨seen, hheld, hold⟩

end Held

/-! ## Operations -/

theorem evict_span (window : ReplayWindow) (now : Instant) :
    (window.evict now).span = window.span := rfl

theorem evict_queue (window : ReplayWindow) (now : Instant) :
    (window.evict now).queue = window.held now :=
  expire_fst _ _ _ _

theorem consistent_ofSeconds (seconds : UInt64) : (ofSeconds seconds).Consistent := indexedBy_nil

theorem consistent_clear (window : ReplayWindow) : window.clear.Consistent := indexedBy_nil

variable {window : ReplayWindow} {id : String} {now : Instant}

theorem Consistent.evict (h : window.Consistent) (now : Instant) :
    (window.evict now).Consistent :=
  indexedBy_expire _ _ h

theorem register_fst (window : ReplayWindow) (id : String) (now : Instant) :
    (window.register id now).1 = (window.evict now).index[id]? := by
  unfold register
  dsimp only
  split <;> rename_i h <;> exact h.symm

theorem register_snd_of_eq_some {seen : Instant} (h : (window.register id now).1 = some seen) :
    (window.register id now).2 = window.evict now := by
  rw [register_fst] at h
  unfold register
  dsimp only
  rw [h]

theorem register_snd_of_eq_none (h : (window.register id now).1 = none) :
    (window.register id now).2 =
      { window.evict now with
        queue := window.held now ++ [(id, now)]
        index := (window.evict now).index.insert id now } := by
  rw [register_fst] at h
  unfold register
  dsimp only
  rw [h, evict_queue]

theorem register_span (window : ReplayWindow) (id : String) (now : Instant) :
    (window.register id now).2.span = window.span := by
  cases h : (window.register id now).1 with
  | none => rw [register_snd_of_eq_none h, evict_span]
  | some seen => rw [register_snd_of_eq_some h, evict_span]

/-- An id is refused exactly if it is held, and then with the instant of its admission. -/
theorem register_fst_eq_some_iff (hc : window.Consistent) {seen : Instant} :
    (window.register id now).1 = some seen ↔ (id, seen) ∈ window.held now := by
  rw [register_fst, (hc.evict now).getElem?_iff, evict_queue]

theorem register_fst_eq_none (hc : window.Consistent) (h : id ∉ window.queue.map Prod.fst) :
    (window.register id now).1 = none := by
  rw [Option.eq_none_iff_forall_ne_some]
  intro seen hseen
  rw [register_fst_eq_some_iff hc] at hseen
  exact h (List.mem_map_of_mem ((List.dropWhile_sublist _).subset hseen))

theorem register_queue (h : (window.register id now).1 = none) :
    (window.register id now).2.queue = window.held now ++ [(id, now)] := by
  rw [register_snd_of_eq_none h]

theorem Consistent.register (hc : window.Consistent) (id : String) (now : Instant) :
    (window.register id now).2.Consistent := by
  cases h : (window.register id now).1 with
  | none =>
    rw [register_snd_of_eq_none h, ← evict_queue]
    rw [register_fst] at h
    exact (hc.evict now).insert h now
  | some seen =>
    rw [register_snd_of_eq_some h]
    exact hc.evict now

end ReplayWindow

end TradeGate
