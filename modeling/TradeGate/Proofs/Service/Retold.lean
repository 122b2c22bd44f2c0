import TradeGate.Proofs.Gate.Retold
import TradeGate.Proofs.Service.Isolation
import TradeGate.Proofs.Snapshot.Reread

/-!
# Blocks that a text keeps

A text may say less of a snapshot than the snapshot itself: numbers that are not finite are null in it,
and the digits of the others need not be read back. A service that blocks a snapshot blocks every text
of it, unless nothing but metrics that the text loses stands against the trade
(`Service.textBlocks_iff`). There are such snapshots, with a metric that is not a number and with
finite ones (`Service.not_textBlocks_samples`).
-/

namespace TradeGate

open Binary64 (reread)
open History (answered)

namespace Service

variable {service : Service} {snapshot : Snapshot} {text : String} {moment : Moment}
  {moments : Nat → Moment}

/-! ## Texts that are not read as a whole -/

/-- Snapshots that lack sections are all blocked. -/
theorem Sound.blocks_incomplete (h : service.Sound) {snapshots : List Snapshot}
    (hs : ∀ snapshot ∈ snapshots, snapshot.sections? = none) (moments : Nat → Moment) :
    ∃ outputs, (evaluateAll (timed moments snapshots) service).1 = .ok outputs ∧
      outputs.length = snapshots.length ∧ ∀ output ∈ outputs, output.verdict = .block := by
  have hfst := History.map_fst_answered (decideAlone service.audited.gate) service.audited.state
    (timed moments snapshots)
  have hblocks : ∀ entry ∈ answered (decideAlone service.audited.gate) service.audited.state
      (timed moments snapshots), entry.1.1.sections? = none → entry.2.verdict = .block := by
    refine History.forall_mem_answered _ (P := fun _ => True) trivial
      (fun item window _ => ⟨fun hnone => ?_, trivial⟩) _
    unfold decideAlone
    rw [Gate.evaluate_of_incomplete _ _ hnone]
    rfl
  refine ⟨_, h.evaluateAll_eq _, ?_, fun output houtput => ?_⟩
  · have hlength := congrArg List.length hfst
    rw [List.length_map] at hlength ⊢
    exact hlength.trans List.length_mapIdx
  · obtain ⟨entry, hentry, rfl⟩ := List.mem_map.1 houtput
    have hitem : entry.1 ∈ timed moments snapshots := hfst ▸ List.mem_map_of_mem hentry
    obtain ⟨k, hk, heq⟩ := List.mem_mapIdx.1 hitem
    exact hblocks entry hentry (heq ▸ hs _ (List.getElem_mem hk))

/-- A text of a snapshot that is not read as a whole has nothing but empty snapshots. -/
theorem sections?_of_mem_snapshotsOfText
    (htext : text = (Snapshot.codec.encode snapshot).compact ∨
      text = (Snapshot.codec.encode snapshot).pretty)
    (hnone : Snapshot.readChars? text.toList = none) :
    snapshotsOfText text.toList ≠ [] ∧
      ∀ other ∈ snapshotsOfText text.toList, other.sections? = none := by
  have hcs := Snapshot.toList_encode htext
  unfold snapshotsOfText
  rw [hnone]
  refine ⟨fun hnil => Snapshot.filledLines_encode_ne_nil hcs (List.map_eq_nil_iff.1 hnil), ?_⟩
  intro other hother
  obtain ⟨line, hline, rfl⟩ := List.mem_map.1 hother
  unfold snapshotOfLine
  cases hread : Snapshot.readChars? line with
  | none => rfl
  | some other => rw [Option.getD_some, Snapshot.eq_empty_of_line hcs hnone hline hread]; rfl

/-! ## Texts that are read -/

/-- A text that is one snapshot is decided on by the gate alone. -/
theorem Sound.evaluateText_of_read (h : service.Sound) {other : Snapshot}
    (hread : Snapshot.readChars? text.toList = some other) (moments : Nat → Moment) :
    (service.evaluateText text moments).1 =
      .ok [(decideAlone service.audited.gate (other, moments 0) service.audited.state).1] := by
  unfold evaluateText snapshotsOfText
  rw [hread, h.evaluateAll_eq]
  rfl

/-! ## Blocks -/

/-- If the service blocks the snapshot, it blocks all of the text. -/
def TextBlocks (service : Service) (snapshot : Snapshot) (text : String) (moment : Moment)
    (moments : Nat → Moment) : Prop :=
  ∀ decision, (service.evaluate snapshot moment).1 = .ok decision → decision.verdict = .block →
    ∃ outputs, (service.evaluateText text moments).1 = .ok outputs ∧ outputs ≠ [] ∧
      ∀ output ∈ outputs, output.verdict = .block

/-- Where the text is not read as a whole, all of it is blocked. -/
theorem Sound.textBlocks_of_unread (h : service.Sound)
    (htext : text = (Snapshot.codec.encode snapshot).compact ∨
      text = (Snapshot.codec.encode snapshot).pretty)
    (hnone : Snapshot.readChars? text.toList = none) :
    service.TextBlocks snapshot text moment moments := by
  obtain ⟨hne, hlacking⟩ := sections?_of_mem_snapshotsOfText htext hnone
  obtain ⟨outputs, houtputs, hlength, hblocks⟩ := h.blocks_incomplete hlacking moments
  refine fun _ _ _ => ⟨outputs, houtputs, ?_, hblocks⟩
  rintro rfl
  exact hne (List.length_eq_zero_iff.1 hlength.symm)

/-- Where the text is read as a snapshot, the gate decides on that one. -/
theorem Sound.textBlocks_iff_of_read (h : service.Sound) {other : Snapshot}
    (hread : Snapshot.readChars? text.toList = some other) (hnow : (moments 0).now = moment.now) :
    service.TextBlocks snapshot text moment moments ↔
      ¬ ((service.audited.gate.evaluate snapshot moment.now moment.watch
            service.audited.state).1.decision.verdict = .block ∧
          (service.audited.gate.evaluate other moment.now (moments 0).watch
            service.audited.state).1.decision.verdict = .execute) := by
  obtain ⟨hanswer, -⟩ := h.decides snapshot moment
  have htold := h.evaluateText_of_read hread moments
  unfold decideAlone at hanswer htold
  dsimp only at hanswer htold
  rw [hnow] at htold
  generalize (service.audited.gate.evaluate snapshot moment.now moment.watch
    service.audited.state).1.decision = decision at hanswer
  generalize (service.audited.gate.evaluate other moment.now (moments 0).watch
    service.audited.state).1.decision = output at htold
  unfold TextBlocks
  rw [hanswer, htold]
  constructor
  · rintro hkept ⟨hblock, hexecute⟩
    obtain ⟨outputs, houtputs, -, hblocks⟩ := hkept decision rfl hblock
    obtain rfl := Except.ok.inj houtputs
    exact Verdict.ne_execute_iff.2 (hblocks output List.mem_cons_self) hexecute
  · rintro hkept _ ⟨⟩ hblock
    refine ⟨[output], rfl, List.cons_ne_nil _ _, fun other hother => ?_⟩
    rw [List.mem_singleton.1 hother]
    exact Verdict.ne_execute_iff.1 fun hexecute => hkept ⟨hblock, hexecute⟩

/-- A service that blocks a snapshot blocks a text of it, unless the text is read and nothing but
metrics that it loses stands against the trade. -/
theorem textBlocks_iff (hsound : service.Sound)
    (htext : text = (Snapshot.codec.encode snapshot).compact ∨
      text = (Snapshot.codec.encode snapshot).pretty)
    (hmoment : (moments 0).Alike service.audited.gate.policy.timing moment) :
    service.TextBlocks snapshot text moment moments ↔
      ¬ ((Snapshot.readChars? text.toList).isSome = true ∧
        service.audited.gate.OnlyLost reread snapshot moment.now moment.watch
          service.audited.state) := by
  cases hread : Snapshot.readChars? text.toList with
  | none => exact iff_of_true (hsound.textBlocks_of_unread htext hread) fun h => nomatch h.1
  | some other =>
    obtain rfl := Snapshot.eq_retold_of_readChars? (Snapshot.toList_encode htext) hread
    rw [hsound.textBlocks_iff_of_read hread hmoment.now_eq,
      Gate.execute_retold_iff hsound.gate_eq hmoment.sameSides.symm, Option.isSome_some, eq_self_iff_true,
      true_and]

/-! ## Samples -/

/-- A healthy snapshot whose use of the rate limit is not a number. -/
def unmeasured? : Option Snapshot :=
  (Snapshot.healthy? .epoch "request").map fun snapshot =>
    { snapshot with
      executionHealth := snapshot.executionHealth.map fun execution =>
        { execution with rateLimitUtilization := some .nan } }

/-- A healthy snapshot whose clock drifts by the least that is above the standard limit. -/
def drifting? : Option Snapshot :=
  (Snapshot.healthy? .epoch "request").map fun snapshot =>
    { snapshot with
      systemState := snapshot.systemState.map fun system =>
        { system with clockDriftMs := some (.ofPlaces 10000000000000001 13) } }

theorem textBlocks_iff_unmeasured :
    ∃ service snapshot, start sampleSettings none .empty = .ok service ∧
      unmeasured? = some snapshot ∧
      (service.TextBlocks snapshot (Snapshot.codec.encode snapshot).compact (sampleMoment 2 0)
          (sampleMoment 1) ↔
        ¬ ((Snapshot.readChars? (Snapshot.codec.encode snapshot).compact.toList).isSome = true ∧
          service.audited.gate.OnlyLost reread snapshot .epoch (sampleMoment 2 0).watch
            service.audited.state)) := by
  obtain ⟨service, hservice⟩ := exists_start_sampleSettings
  have hsome : unmeasured?.isSome = true := by decide +kernel
  obtain ⟨snapshot, hsnapshot⟩ := Option.isSome_iff_exists.1 hsome
  exact ⟨service, snapshot, hservice, hsnapshot, textBlocks_iff (sound_of_start hservice)
    (.inl rfl) ⟨rfl, rfl, ⟨fun _ => rfl, fun _ => rfl⟩⟩⟩

section Start

variable (h : start sampleSettings none .empty = .ok service)

include h

/-- A service that was just set up executes a complete snapshot that nothing is objected to. -/
theorem execute_iff_of_start (snapshot : Snapshot) (total k : Nat) :
    (service.audited.gate.evaluate snapshot .epoch (sampleMoment total k).watch
        service.audited.state).1.decision.verdict = .execute ↔
      ∃ s, snapshot.sections? = some s ∧
        firstViolation? (service.audited.gate.policy.standingObjections s .epoch) = none := by
  obtain ⟨hgate, hstate, -⟩ := gate_of_start h
  have hsides : (sampleMoment total k).watch.SameSides service.audited.gate.policy.timing .still :=
    ⟨fun _ => by rw [sampleMoment], fun _ => by rw [sampleMoment]⟩
  have hbudget : service.audited.gate.InBudget (sampleMoment total k).watch :=
    (hsides.inBudget_iff _).2 (Gate.inBudget_still _)
  rw [Gate.verdict_eq_execute_iff hgate hbudget, hstate]
  refine exists_congr fun s => and_congr_right fun _ => ?_
  have hnew : ((Gate.window service.audited.gate.policy).register s.intent.requestId .epoch).1 =
      none :=
    ReplayWindow.register_fst_eq_none (ReplayWindow.consistent_ofSeconds _) List.not_mem_nil
  rw [firstViolation?_eq_none_iff_of_answers (Policy.standing_answers _ s .epoch)]
  exact and_iff_right hnew

/-- What the text of the snapshot is read as is executed, and the snapshot itself is not. -/
theorem not_textBlocks_of_objections {other : Snapshot}
    (hother : Snapshot.codec.decode .json (Snapshot.codec.encode snapshot).reread = some other)
    (hblock : ∀ s ∈ snapshot.sections?,
      firstViolation? (service.audited.gate.policy.standingObjections s .epoch) ≠ none)
    (hexecute : ∃ s ∈ other.sections?,
      firstViolation? (service.audited.gate.policy.standingObjections s .epoch) = none) :
    ¬ service.TextBlocks snapshot (Snapshot.codec.encode snapshot).compact (sampleMoment 1 0)
      (sampleMoment 1) := by
  have hread : Snapshot.readChars? (Snapshot.codec.encode snapshot).compact.toList = some other := by
    unfold Snapshot.readChars?
    rw [Snapshot.json_readChars?_encode (Snapshot.toList_encode (.inl rfl)), Option.bind_some, hother]
  rw [(sound_of_start h).textBlocks_iff_of_read hread rfl, not_not, ← Verdict.ne_execute_iff]
  refine ⟨fun hrun => ?_, (execute_iff_of_start h other 1 0).2 hexecute⟩
  obtain ⟨s, hs, hnone⟩ := (execute_iff_of_start h snapshot 1 0).1 hrun
  exact hblock s hs hnone

end Start

/-- The standard policy objects to the snapshot, and not to what the text of it is read as. -/
def Slips (snapshot : Snapshot) : Bool :=
  snapshot.sections?.all (fun s =>
      (firstViolation? (Policy.standard.standingObjections s .epoch)).isSome) &&
    (Snapshot.codec.decode .json (Snapshot.codec.encode snapshot).reread).any fun other =>
      other.sections?.any fun s =>
        (firstViolation? (Policy.standard.standingObjections s .epoch)).isNone

theorem not_textBlocks_of_slips (h : start sampleSettings none .empty = .ok service)
    (hslips : Slips snapshot = true) :
    ¬ service.TextBlocks snapshot (Snapshot.codec.encode snapshot).compact (sampleMoment 1 0)
      (sampleMoment 1) := by
  have hpolicy : service.audited.gate.policy = .standard := by
    have hall : (start sampleSettings none .empty).toOption.all
        (fun service => service.audited.gate.policy = .standard) = true := by decide +kernel
    rw [h] at hall
    exact of_decide_eq_true hall
  obtain ⟨hblock, hexecute⟩ := Bool.and_eq_true_iff.1 hslips
  obtain ⟨other, hother, hsome⟩ := (Option.any_eq_true _ _).1 hexecute
  obtain ⟨s, hs, hnone⟩ := (Option.any_eq_true _ _).1 hsome
  refine not_textBlocks_of_objections h hother (fun s hs => ?_)
    ⟨s, hs, by rw [hpolicy]; exact Option.isNone_iff_eq_none.1 hnone⟩
  rw [hpolicy]
  exact Option.isSome_iff_ne_none.1 ((Option.all_eq_true _ _).1 hblock s hs)

/-- There are snapshots that a service blocks but executes as their texts: a metric that is not a
number is null there, and a finite one is read as its limit. -/
theorem not_textBlocks_samples :
    ∃ service, start sampleSettings none .empty = .ok service ∧
      (∃ snapshot, unmeasured? = some snapshot ∧ ¬ service.TextBlocks snapshot
        (Snapshot.codec.encode snapshot).compact (sampleMoment 1 0) (sampleMoment 1)) ∧
      ∃ snapshot, drifting? = some snapshot ∧ ¬ service.TextBlocks snapshot
        (Snapshot.codec.encode snapshot).compact (sampleMoment 1 0) (sampleMoment 1) := by
  have hunmeasured : unmeasured?.any Slips = true := by decide +kernel
  have hdrifting : drifting?.any Slips = true := by decide +kernel
  obtain ⟨service, hservice⟩ := exists_start_sampleSettings
  obtain ⟨unmeasured, hsome, hslips⟩ := (Option.any_eq_true _ _).1 hunmeasured
  obtain ⟨drifting, hsome', hslips'⟩ := (Option.any_eq_true _ _).1 hdrifting
  exact ⟨service, hservice, ⟨unmeasured, hsome, not_textBlocks_of_slips hservice hslips⟩,
    drifting, hsome', not_textBlocks_of_slips hservice hslips'⟩

end Service

end TradeGate
