import TradeGate.Proofs.Audit.Cleanup
import TradeGate.Proofs.Audit.Statistics
import TradeGate.Proofs.Decision.Tags

/-!
# What a store knows about blocks

Two queries look at the blocks of the last hours. One lists them, by verdict and category, and the
other counts them by reason, whatever the verdict. They agree (`Store.BlocksAgree`) as long as what
was logged was made by the constructors of decisions: then a reason goes with a block and with its
category. The lists are newest first if the decisions were logged in the order of their timestamps,
since what a store holds is what was logged, without what cleanups have dropped
(`Store.decisions_behind_sublist`).
-/

namespace TradeGate

namespace Store

/-! ## What is held of what was logged -/

theorem decisions_perform_sublist (event : Event) (store : Store) :
    (perform event store).2.decisions.Sublist
      (event.operation.logged?.toList ++ store.decisions) := by
  obtain ⟨operation, now⟩ := event
  cases operation with
  | logDecision decision => exact List.Sublist.refl _
  | cleanup retentionDays => exact List.filter_sublist
  | countDecision | logAlert | findDecision | decisionsOn | recentBlocks | blockCounts | recentAlerts
  | countAlerts | dayOrNew | recentDays => exact List.Sublist.refl store.decisions

/-- The decisions held are, newest first, among those that were logged. -/
theorem decisions_behind_sublist (events : List Event) :
    (behind events).decisions.Sublist (events.filterMap (·.operation.logged?)).reverse := by
  induction events using List.reverseRecOn with
  | nil => exact List.Sublist.refl []
  | append_singleton events event ih =>
    rw [behind_append_singleton, List.filterMap_append, History.filterMap_singleton,
      List.reverse_append]
    refine (decisions_perform_sublist event _).trans ?_
    cases event.operation.logged? with
    | none => exact ih
    | some decision => exact ih.cons_cons decision

/-! ## Lists of blocks -/

section Queries

variable (store : Store) (now : Instant) (within : UInt32)

/-- All the blocks of the last hours, newest first, of one category or of all: no list has more than
the store holds. -/
def blocks (category : Option Category) : List Decision :=
  store.recentBlocks now within store.decisions.length category

theorem blocks_eq (category : Option Category) :
    store.blocks now within category = store.decisions.filter fun decision =>
      decision.isBlock && now.subOrEarliest (hours within) ≤ decision.timestamp &&
        (category.isNone || decision.category = category) :=
  List.take_of_length_le (List.length_filter_le _ _)

theorem recentBlocks_eq_take (limit : Nat) (category : Option Category) :
    store.recentBlocks now within limit category = (store.blocks now within category).take limit := by
  rw [blocks_eq]
  rfl

theorem blocks_some (category : Category) :
    store.blocks now within (some category) =
      (store.blocks now within none).filter (·.category = some category) := by
  rw [blocks_eq, blocks_eq, List.filter_filter]
  refine List.filter_congr fun decision _ => ?_
  simp [Bool.and_comm]

theorem mem_blocks_none (decision : Decision) :
    decision ∈ store.blocks now within none ↔ decision ∈ store.decisions ∧
      decision.isBlock = true ∧ now.subOrEarliest (hours within) ≤ decision.timestamp := by
  rw [blocks_eq, List.mem_filter]
  simp

variable {within} in
/-- More hours only add blocks. -/
theorem blocks_sublist {longer : UInt32} (h : within ≤ longer) (category : Option Category) :
    (store.blocks now within category).Sublist (store.blocks now longer category) := by
  rw [blocks_eq, blocks_eq, ← filter_filter_of_imp]
  · exact List.filter_sublist
  · intro decision _ hdecision
    simp only [Bool.and_eq_true, decide_eq_true_eq] at hdecision ⊢
    have hcutoff := Instant.subOrEarliest_units_antitone now 3600 h
    exact ⟨⟨hdecision.1.1, Int.le_trans hcutoff hdecision.1.2⟩, hdecision.2⟩

/-! ## Counts of reasons -/

/-- How many decisions since the cutoff give a reason. -/
def timesGiven (reason : Reason) : Nat :=
  (store.decisions.filter fun decision =>
    now.subOrEarliest (hours within) ≤ decision.timestamp).countP (·.reason = some reason)

theorem blockCounts_eq :
    store.blockCounts now within = Reason.all.filterMap fun reason =>
      if store.timesGiven now within reason = 0 then none
      else some (reason, store.timesGiven now within reason) := by
  have hgiven (decisions : List Decision) (reason : Reason) :
      (decisions.filterMap Decision.reason).countP (· = reason) =
        decisions.countP (·.reason = some reason) := by
    rw [List.countP_filterMap]
    refine List.countP_congr fun decision _ => ?_
    cases decision.reason <;> simp
  unfold blockCounts timesGiven
  simp only [hgiven]

/-- Leaving out what is not there changes no sum. -/
theorem sum_filterMap_pos {α : Type} (number : α → Nat) (p : α → Bool) (keys : List α) :
    (((keys.filterMap fun key => if number key = 0 then none else some (key, number key)).filter
      fun entry => p entry.1).map Prod.snd).sum = ((keys.filter p).map number).sum := by
  induction keys with
  | nil => rfl
  | cons key rest ih =>
    by_cases hzero : number key = 0
    · cases hp : p key <;> simp [hzero, hp, ih]
    · cases hp : p key <;> simp [hzero, hp, ih]

variable {store} (htagged : ∀ decision ∈ store.decisions, decision.Tagged)

include htagged

/-- Reasons are given by blocks, each of which is of the category of its reason. -/
theorem timesGiven_eq (reason : Reason) :
    store.timesGiven now within reason =
      (store.blocks now within none).countP (·.reason = some reason) := by
  unfold timesGiven
  rw [blocks_eq, List.countP_filter, List.countP_filter]
  refine List.countP_congr fun decision hmem => ?_
  have hreason := (htagged decision hmem).reason
  cases hgiven : decision.reason with
  | none => simp
  | some other =>
    rw [hgiven, Option.isSome_some] at hreason
    simp [← hreason]

/-- The counts of the reasons of a category add up to the number of its blocks. -/
theorem sum_blockCounts (category : Category) :
    (((store.blockCounts now within).filter (·.1.category = category)).map Prod.snd).sum =
      (store.blocks now within (some category)).length := by
  have hkeys : (Reason.all.filter (·.category = category)).Nodup :=
    List.Nodup.sublist List.filter_sublist (by decide)
  rw [blockCounts_eq, sum_filterMap_pos _ fun reason : Reason => reason.category = category,
    funext (timesGiven_eq now within htagged), sum_map_countP Decision.reason hkeys, blocks_some,
    ← List.countP_eq_length_filter]
  refine List.countP_congr fun decision hmem => ?_
  rw [(htagged decision ((mem_blocks_none ..).1 hmem).1).category]
  cases decision.reason with
  | none => simp
  | some reason => simp [Reason.mem_all]

end Queries

/-! ## Agreement -/

/-- The queries about the blocks of the last hours tell of the same blocks. -/
structure BlocksAgree (store : Store) (now : Instant) (within : UInt32) : Prop where
  mem_iff : ∀ decision, decision ∈ store.blocks now within none ↔ decision ∈ store.decisions ∧
    decision.isBlock = true ∧ now.subOrEarliest (hours within) ≤ decision.timestamp
  /-- A limit cuts the list off. -/
  limited : ∀ limit category, store.recentBlocks now within limit category =
    (store.blocks now within category).take limit
  /-- The blocks of a category are those among all blocks. -/
  ofCategory : ∀ category, store.blocks now within (some category) =
    (store.blocks now within none).filter (·.category = some category)
  /-- A reason is counted as often as blocks give it. -/
  counts_iff : ∀ reason n, (reason, n) ∈ store.blockCounts now within ↔
    n ≠ 0 ∧ n = (store.blocks now within none).countP (·.reason = some reason)
  /-- The counts of the reasons of a category add up to the number of its blocks. -/
  sum_counts : ∀ category,
    (((store.blockCounts now within).filter (·.1.category = category)).map Prod.snd).sum =
      (store.blocks now within (some category)).length
  /-- More hours only add blocks. -/
  sublist : ∀ longer, within ≤ longer → ∀ category,
    (store.blocks now within category).Sublist (store.blocks now longer category)

theorem blocksAgree_of_tagged {store : Store}
    (htagged : ∀ decision ∈ store.decisions, decision.Tagged) (now : Instant) (within : UInt32) :
    store.BlocksAgree now within where
  mem_iff := mem_blocks_none store now within
  limited := recentBlocks_eq_take store now within
  ofCategory := blocks_some store now within
  counts_iff reason n := by
    rw [blockCounts_eq, List.mem_filterMap]
    simp only [timesGiven_eq now within htagged]
    constructor
    · rintro ⟨other, -, hentry⟩
      split at hentry
      · exact nomatch hentry
      · rename_i hpos
        obtain ⟨rfl, rfl⟩ := Prod.mk.inj (Option.some.inj hentry)
        exact ⟨hpos, rfl⟩
    · rintro ⟨hpos, rfl⟩
      exact ⟨reason, Reason.mem_all reason, if_neg hpos⟩
  sum_counts := sum_blockCounts now within htagged
  sublist _ h := blocks_sublist store now h

/-- Behind whatever operations, as long as all that was logged was made by the constructors of
decisions, the queries about blocks agree; and if it was logged in the order of its timestamps, every
list of blocks is newest first by these, too. -/
theorem blocksAgree_behind (events : List Event)
    (hbuilt : ∀ decision ∈ events.filterMap (·.operation.logged?), decision.Built) (now : Instant)
    (within : UInt32) :
    (behind events).BlocksAgree now within ∧
      ((events.filterMap (·.operation.logged?)).Pairwise (·.timestamp ≤ ·.timestamp) →
        ∀ limit category, ((behind events).recentBlocks now within limit category).Pairwise
          fun newer older => older.timestamp ≤ newer.timestamp) := by
  have hheld := decisions_behind_sublist events
  refine ⟨blocksAgree_of_tagged (fun decision hmem => ?_) now within, fun hordered limit category => ?_⟩
  · exact (hbuilt decision (List.mem_reverse.1 (hheld.subset hmem))).tagged
  · refine (List.pairwise_reverse.2 hordered).sublist ?_
    exact ((List.take_sublist _ _).trans List.filter_sublist).trans hheld

/-! ## A sample run -/

/-- An execution and two blocks, the first of which a cleanup drops. -/
def sampleBlocks : List Event :=
  [⟨.logDecision (sampleBlock .epoch), .epoch⟩,
    ⟨.logDecision (.execute "GUARD-2" none [] (.ofNat 0) .beforeLeap), .beforeLeap⟩,
    ⟨.logDecision (sampleBlock .beforeLeap), .beforeLeap⟩, ⟨.cleanup 1, .beforeLeap⟩]

theorem blocksAgree_sampleBlocks :
    (behind sampleBlocks).blocks .beforeLeap 24 none = [sampleBlock .beforeLeap] ∧
      (behind sampleBlocks).BlocksAgree .beforeLeap 24 ∧
      ∀ limit category, ((behind sampleBlocks).recentBlocks .beforeLeap 24 limit category).Pairwise
        fun newer older => older.timestamp ≤ newer.timestamp := by
  have hbuilt : ∀ decision ∈ sampleBlocks.filterMap (·.operation.logged?), decision.Built := by
    intro decision hmem
    simp only [sampleBlocks, Operation.logged?, List.filterMap_cons, List.filterMap_nil,
      List.mem_cons, List.not_mem_nil, or_false] at hmem
    rcases hmem with rfl | rfl | rfl
    · exact .internalError ..
    · exact .execute ..
    · exact .internalError ..
  have hordered : (sampleBlocks.filterMap (·.operation.logged?)).Pairwise
      (·.timestamp ≤ ·.timestamp) := by decide
  obtain ⟨hagree, hnewest⟩ := blocksAgree_behind sampleBlocks hbuilt .beforeLeap 24
  exact ⟨rfl, hagree, hnewest hordered⟩

end Store

end TradeGate
