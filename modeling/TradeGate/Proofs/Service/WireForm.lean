import TradeGate.Proofs.Service.Stream
import TradeGate.Proofs.Snapshot.Legible

/-!
# Snapshots and their texts

A text that is written for a snapshot, on one line or over several, is one snapshot for a service
(`Service.snapshotsOfText_encode`). So the text is answered with one decision, which is the one for
the snapshot itself up to what was measured (`Service.evaluateText_encode`).
-/

namespace TradeGate

namespace Service

variable {service : Service} {snapshot : Snapshot} {text : String}

/-- The text of a snapshot holds that snapshot and nothing else. -/
theorem snapshotsOfText_encode (h : snapshot.Legible)
    (htext : text = (Snapshot.codec.encode snapshot).compact ∨
      text = (Snapshot.codec.encode snapshot).pretty) :
    snapshotsOfText text.toList = [snapshot] := by
  unfold snapshotsOfText
  rw [Snapshot.readChars?_encode h (Snapshot.toList_encode htext)]

/-- Evaluating the text of a snapshot comes to one decision, the one for the snapshot, and leaves
the service as evaluating the snapshot does, up to what was measured. -/
theorem evaluateText_encode (hsound : service.Sound) (h : snapshot.Legible)
    (htext : text = (Snapshot.codec.encode snapshot).compact ∨
      text = (Snapshot.codec.encode snapshot).pretty)
    {moments : Nat → Moment} {moment : Moment}
    (hmoment : (moments 0).Alike service.audited.gate.policy.timing moment) :
    ∃ output decision,
      (service.evaluateText text moments).1 = .ok [output] ∧
      (service.evaluate snapshot moment).1 = .ok decision ∧
      output.unmeasured = decision.unmeasured ∧
      (service.evaluateText text moments).2.Alike (service.evaluate snapshot moment).2 := by
  obtain ⟨⟨output, houtput⟩, -, -⟩ := hsound.evaluate snapshot (moments 0)
  obtain ⟨⟨decision, hdecision⟩, -, -⟩ := hsound.evaluate snapshot moment
  obtain ⟨hsame, halike⟩ := service.alike_refl.evaluate hsound snapshot hmoment
  have hone : service.evaluateText text moments =
      (.ok [output], (service.evaluate snapshot (moments 0)).2) := by
    unfold evaluateText
    rw [snapshotsOfText_encode h htext, timed_cons, evaluateAll_cons]
    generalize service.evaluate snapshot (moments 0) = result at houtput
    obtain ⟨answer, next⟩ := result
    obtain rfl : answer = .ok output := houtput
    rfl
  rw [houtput, hdecision] at hsame
  rw [hone]
  exact ⟨output, decision, rfl, hdecision, Except.ok.inj hsame, halike⟩

theorem evaluateText_encode_healthy :
    ∃ service snapshot, start sampleSettings none .empty = .ok service ∧
      Snapshot.healthy? .epoch "request" = some snapshot ∧ snapshot.Legible ∧
      ∃ output decision,
        (service.evaluateText (Snapshot.codec.encode snapshot).pretty (sampleMoment 1)).1 =
          .ok [output] ∧
        (service.evaluate snapshot (sampleMoment 2 0)).1 = .ok decision ∧
        output.unmeasured = decision.unmeasured ∧
        (service.evaluateText (Snapshot.codec.encode snapshot).pretty (sampleMoment 1)).2.Alike
          (service.evaluate snapshot (sampleMoment 2 0)).2 := by
  obtain ⟨service, hservice⟩ := exists_start_sampleSettings
  obtain ⟨snapshot, hsnapshot, hlegible⟩ : ∃ snapshot ∈ Snapshot.healthy? .epoch "request",
      snapshot.Legible := by decide +kernel
  exact ⟨service, snapshot, hservice, hsnapshot, hlegible, evaluateText_encode
    (sound_of_start hservice) hlegible (.inr rfl) ⟨rfl, rfl, ⟨fun _ => rfl, fun _ => rfl⟩⟩⟩

end Service

end TradeGate
