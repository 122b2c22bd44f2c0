import TradeGate.Proofs.AuditedGate.Frame
import TradeGate.Proofs.Gate.Specification
import TradeGate.Proofs.History
import TradeGate.Proofs.Service.Stream

/-!
# Lines without a snapshot

A line that holds no snapshot is blocked for what it lacks, and leaves the replay window as it was.
So the gate decides on the other lines as if it were not there: leaving such lines out of a text
changes no other decision, also where what is left is one snapshot and is read as a whole
(`Service.evaluateText_keepLines`).
-/

namespace TradeGate

open History (answered)

namespace Service

variable {service : Service}

/-! ## The gate alone -/

/-- The gate alone on a snapshot at a moment. -/
def decideAlone (gate : Gate ReplayWindow) (item : Snapshot × Moment) (window : ReplayWindow) :
    Decision × ReplayWindow :=
  let (evaluation, next) := gate.evaluate item.1 item.2.now item.2.watch window
  (evaluation.decision, next)

theorem Sound.decides (h : service.Sound) (snapshot : Snapshot) (moment : Moment) :
    (service.evaluate snapshot moment).1 =
        .ok (decideAlone service.audited.gate (snapshot, moment) service.audited.state).1 ∧
      (service.evaluate snapshot moment).2.audited.state =
        (decideAlone service.audited.gate (snapshot, moment) service.audited.state).2 := by
  obtain ⟨⟨decision, hdecision⟩, -, -⟩ := h.evaluate snapshot moment
  obtain ⟨-, hstate, -, hanswer⟩ := service.audited.frames_evaluateAt moment.id moment.now
    ReplayWindow.size snapshot moment.later moment.watch
  refine ⟨?_, hstate⟩
  unfold Service.evaluate at hdecision ⊢
  dsimp only at hdecision ⊢
  cases hresult : (service.audited.evaluateAt ReplayWindow.size snapshot moment.now moment.later
      moment.watch moment.id).1 with
  | error fault =>
    rw [hresult] at hdecision
    exact nomatch hdecision
  | ok answer => exact congrArg Except.ok (hanswer answer hresult)

/-- A sound service decides on snapshots as its gate alone does. -/
theorem Sound.evaluateAll_eq (h : service.Sound) (items : List (Snapshot × Moment)) :
    (evaluateAll items service).1 =
      .ok ((answered (decideAlone service.audited.gate) service.audited.state items).map
        Prod.snd) := by
  induction items generalizing service with
  | nil => rfl
  | cons item rest ih =>
    obtain ⟨snapshot, moment⟩ := item
    obtain ⟨hanswer, hstate⟩ := h.decides snapshot moment
    obtain ⟨-, hgate, hnext⟩ := h.evaluate snapshot moment
    have hrest := ih hnext
    rw [hgate, hstate] at hrest
    rw [evaluateAll_cons]
    generalize service.evaluate snapshot moment = result at *
    obtain ⟨answer, next⟩ := result
    obtain rfl : answer = _ := hanswer
    exact congrArg (Except.map _) hrest

/-! ## Lines -/

/-- Gives each line its moment. -/
def atMoments (moments : Nat → Moment) (lines : List (List Char)) : List (List Char × Moment) :=
  lines.mapIdx fun k line => (line, moments k)

/-- The gate alone on a line at a moment. -/
def decideLine (gate : Gate ReplayWindow) (entry : List Char × Moment) :
    ReplayWindow → Decision × ReplayWindow :=
  decideAlone gate (snapshotOfLine entry.1, entry.2)

/-- A decision on a line: it is about the snapshot of the line at that moment, and a line without a
snapshot is blocked, with the names of all sections. -/
structure DecidedOn (entry : List Char × Moment) (decision : Decision) : Prop where
  timestamp_eq : decision.timestamp = entry.2.now
  tradeIntent_eq : decision.tradeIntent = (snapshotOfLine entry.1).tradeIntent
  evaluationId_eq : decision.evaluationId =
    evaluationId entry.2.now (snapshotOfLine entry.1).requestId?
  unreadable : Snapshot.readChars? entry.1 = none →
    decision.verdict = .block ∧ decision.reason = some .guardInternalError ∧
      decision.details.get? "missing_sections" = some (.ofStrings Snapshot.sectionNames)

/-- A line that holds no snapshot leaves the window as it was. -/
theorem decideLine_of_unreadable (gate : Gate ReplayWindow) {entry : List Char × Moment}
    (h : Snapshot.readChars? entry.1 = none) (window : ReplayWindow) :
    decideLine gate entry window =
      (.block (evaluationId entry.2.now none) none (inputIncomplete Snapshot.sectionNames)
        [inputIncomplete Snapshot.sectionNames] entry.2.watch.total entry.2.now, window) := by
  unfold decideLine decideAlone snapshotOfLine
  have hempty : gate.evaluate .empty entry.2.now entry.2.watch window = _ :=
    Gate.evaluate_of_incomplete entry.2.now window rfl
  rw [h]
  exact congrArg (fun result : Evaluation × ReplayWindow => (result.1.decision, result.2)) hempty

theorem decidedOn_decideLine (gate : Gate ReplayWindow) (entry : List Char × Moment)
    (window : ReplayWindow) : DecidedOn entry (decideLine gate entry window).1 := by
  obtain ⟨hid, hintent, htime⟩ :=
    gate.heading_evaluate (snapshotOfLine entry.1) entry.2.now entry.2.watch window
  refine ⟨htime, hintent, hid, fun hunreadable => ?_⟩
  rw [decideLine_of_unreadable gate hunreadable]
  exact ⟨rfl, rfl, rfl⟩

/-- Lines at moments that are alike are decided on alike. -/
theorem unmeasured_decideLine (gate : Gate ReplayWindow) {entry other : List Char × Moment}
    (hline : entry.1 = other.1) (hmoment : entry.2.Alike gate.policy.timing other.2)
    (window : ReplayWindow) :
    (decideLine gate entry window).1.unmeasured = (decideLine gate other window).1.unmeasured ∧
      (decideLine gate entry window).2 = (decideLine gate other window).2 := by
  obtain ⟨line, now, later, watch, id⟩ := entry
  obtain ⟨_, now', later', watch', id'⟩ := other
  obtain rfl : line = _ := hline
  obtain ⟨rfl, -, hwatch⟩ := hmoment
  exact gate.unmeasured_evaluate (snapshotOfLine line) now hwatch window

theorem map_fst_atMoments (moments : Nat → Moment) (lines : List (List Char)) :
    (atMoments moments lines).map Prod.fst = lines := by
  refine List.ext_getElem? fun k => ?_
  unfold atMoments
  rw [List.getElem?_map, List.getElem?_mapIdx, Option.map_map]
  exact congrFun Option.map_id _

theorem timed_snapshotsOfLines (moments : Nat → Moment) (text : List Char) :
    timed moments (snapshotsOfLines text) =
      (atMoments moments (Text.filledLines text)).map fun entry =>
        (snapshotOfLine entry.1, entry.2) := by
  refine List.ext_getElem? fun k => ?_
  unfold timed snapshotsOfLines atMoments
  rw [List.getElem?_mapIdx, List.getElem?_map, List.getElem?_map, List.getElem?_mapIdx,
    Option.map_map, Option.map_map]
  rfl

/-- The lines that are kept, each with the moment that it has among all lines. -/
def keptAtMoments (moments : Nat → Moment) (keep : List Char → Bool) (lines : List (List Char)) :
    List (List Char × Moment) :=
  (atMoments moments lines).filter fun entry => keep entry.1

theorem map_fst_keptAtMoments (moments : Nat → Moment) (keep : List Char → Bool)
    (lines : List (List Char)) :
    (keptAtMoments moments keep lines).map Prod.fst = lines.filter keep := by
  conv_rhs => rw [← map_fst_atMoments moments lines]
  exact List.filter_map.symm

/-- Each line has a moment that is alike the one in its place. -/
theorem forall₂_atMoments {timing : TimingPolicy} {entries : List (List Char × Moment)}
    {others : Nat → Moment}
    (h : ∀ (k : Nat) line (moment : Moment), entries[k]? = some (line, moment) →
      moment.Alike timing (others k)) :
    List.Forall₂ (fun entry other => entry.1 = other.1 ∧ entry.2.Alike timing other.2) entries
      (atMoments others (entries.map Prod.fst)) := by
  induction entries generalizing others with
  | nil => exact .nil
  | cons entry rest ih =>
    unfold atMoments
    rw [List.map_cons, List.mapIdx_cons]
    exact .cons ⟨rfl, h 0 entry.1 entry.2 rfl⟩ (ih fun k => h (k + 1))

variable {gate : Gate ReplayWindow} {window : ReplayWindow} {moments others : Nat → Moment}
  {keep : List Char → Bool} {lines : List (List Char)}

/-- The gate decides on the lines that are kept as it does on them among all lines, if those that are
left out are no snapshots. -/
theorem unmeasured_answered_kept
    (hdropped : ∀ line, keep line = false → Snapshot.readChars? line = none)
    (hmoments : ∀ (k : Nat) line (moment : Moment),
      (keptAtMoments moments keep lines)[k]? = some (line, moment) →
        moment.Alike gate.policy.timing (others k)) :
    (answered (decideLine gate) window (atMoments others (lines.filter keep))).map
        (fun entry => entry.2.unmeasured) =
      ((answered (decideLine gate) window (atMoments moments lines)).filter
        fun entry => keep entry.1.1).map fun entry => entry.2.unmeasured := by
  have hstays : ∀ entry : List Char × Moment, keep entry.1 = false → ∀ window,
      (decideLine gate entry window).2 = window := by
    intro entry hentry window
    rw [decideLine_of_unreadable gate (hdropped _ hentry)]
  have hkept := forall₂_atMoments hmoments
  rw [map_fst_keptAtMoments] at hkept
  calc (answered (decideLine gate) window (atMoments others (lines.filter keep))).map
        (fun entry => entry.2.unmeasured)
      = (answered (decideLine gate) window (keptAtMoments moments keep lines)).map
          fun entry => entry.2.unmeasured :=
        (History.map_answered_of_forall₂ (decideLine gate)
          (fun _ _ h => unmeasured_decideLine gate h.1 h.2) hkept window).symm
    _ = _ := by rw [keptAtMoments, History.answered_filter _ hstays]

theorem zip_answered (moments : Nat → Moment) (lines : List (List Char)) :
    lines.zip ((answered (decideLine gate) window (atMoments moments lines)).map Prod.snd) =
      (answered (decideLine gate) window (atMoments moments lines)).map
        fun entry => (entry.1.1, entry.2) := by
  have hlines : lines = (answered (decideLine gate) window (atMoments moments lines)).map
      fun entry => entry.1.1 := by
    have hfst := congrArg (List.map Prod.fst)
      (History.map_fst_answered (decideLine gate) window (atMoments moments lines))
    rw [map_fst_atMoments, List.map_map] at hfst
    exact hfst.symm
  generalize answered (decideLine gate) window (atMoments moments lines) = answers at hlines
  rw [hlines]
  exact List.zip_map' ..

/-! ## Texts -/

/-- A text whose lines all are snapshots has these snapshots, also if it is one snapshot itself. -/
theorem snapshotsOfText_of_forall_isSome {cs : List Char}
    (h : ∀ line ∈ Text.filledLines cs, (Snapshot.readChars? line).isSome = true) :
    snapshotsOfText cs = snapshotsOfLines cs := by
  refine snapshotsOfText_eq ?_
  cases hlines : Text.filledLines cs with
  | nil => exact .inr (Nat.zero_le 1)
  | cons line others =>
    cases others with
    | nil => exact .inr (Nat.le_refl 1)
    | cons next others =>
      left
      obtain ⟨before, after, rfl, hbefore, hhead, hafter⟩ := Text.exists_blanks_before hlines
      obtain ⟨snapshot, hsnapshot⟩ := Option.isSome_iff_exists.1 (h line (by simp [hlines]))
      obtain ⟨value, hvalue, -⟩ := Option.bind_eq_some_iff.1 hsnapshot
      have hmore : Text.isBlankText after = false := by
        by_contra hblank
        rw [Text.filledLines_eq_nil_of_isBlankText (Bool.of_not_eq_false hblank)] at hafter
        exact nomatch hafter
      have hnone := Json.readChars?_append_eq_none hvalue hhead hmore
      cases hread : Json.readChars? (before ++ (line ++ after)) with
      | none => rw [Snapshot.readChars?, hread, Option.bind_none]
      | some item =>
        exact nomatch hnone.symm.trans (Json.readChars?_of_blanks_before hread hbefore)

/-- A text that is read line by line is decided on by the gate alone, line by line. -/
theorem Sound.evaluateText_eq (h : service.Sound) {text : String}
    (htext : snapshotsOfText text.toList = snapshotsOfLines text.toList) (moments : Nat → Moment) :
    (service.evaluateText text moments).1 =
      .ok ((answered (decideLine service.audited.gate) service.audited.state
        (atMoments moments (Text.filledLines text.toList))).map Prod.snd) := by
  unfold evaluateText
  rw [htext, timed_snapshotsOfLines, h.evaluateAll_eq, History.map_snd_answered_map]
  rfl

/-- Leaving lines without a snapshot out of a text changes no decision on the other lines, up to what
was measured. Every line that is not blank gets one decision. -/
theorem evaluateText_keepLines (hsound : service.Sound) {text : String}
    (htext : Snapshot.readChars? text.toList = none)
    (hkeep : ∀ line, Text.isBlankText line = false →
      keep line = (Snapshot.readChars? line).isSome)
    (hmoments : ∀ (k : Nat) line (moment : Moment),
      (keptAtMoments moments keep (Text.filledLines text.toList))[k]? = some (line, moment) →
        moment.Alike service.audited.gate.policy.timing (others k)) :
    ∃ decisions outputs,
      (service.evaluateText text moments).1 = .ok decisions ∧
      List.Forall₂ DecidedOn (atMoments moments (Text.filledLines text.toList)) decisions ∧
      (service.evaluateText (String.ofList (Text.keepLines keep text.toList)) others).1 =
        .ok outputs ∧
      outputs.map Decision.unmeasured =
        (((Text.filledLines text.toList).zip decisions).filter fun entry => keep entry.1).map
          fun entry => entry.2.unmeasured := by
  have hleft : Text.filledLines (String.ofList (Text.keepLines keep text.toList)).toList =
      (Text.filledLines text.toList).filter keep := by
    rw [String.toList_ofList, Text.filledLines_keepLines]
  have hreadable : ∀ line ∈ (Text.filledLines text.toList).filter keep,
      (Snapshot.readChars? line).isSome = true := by
    intro line hline
    obtain ⟨hmem, hkept⟩ := List.mem_filter.1 hline
    have hfilled := (List.mem_filter.1 hmem).2
    rw [← hkeep line (by simpa using hfilled), hkept]
  have hunreadable : ∀ line, keep line = false → Snapshot.readChars? line = none := by
    intro line hdropped
    cases hblank : Text.isBlankText line with
    | true => rw [Snapshot.readChars?, Json.readChars?_eq_none_of_blank hblank, Option.bind_none]
    | false =>
      rwa [hkeep line hblank, Option.isSome_eq_false_iff, Option.isNone_iff_eq_none] at hdropped
  refine ⟨_, _, hsound.evaluateText_eq (snapshotsOfText_eq (.inl htext)) moments,
    History.forall₂_answered _ (decidedOn_decideLine service.audited.gate) _ _,
    hsound.evaluateText_eq (snapshotsOfText_of_forall_isSome (hleft ▸ hreadable)) others, ?_⟩
  rw [hleft, zip_answered, List.filter_map, List.map_map, List.map_map]
  exact unmeasured_answered_kept hunreadable hmoments

/-- A line that holds no snapshot, and an empty snapshot. What is left without the first line is one
snapshot. -/
def sampleLines : String := "no snapshot\n\x7b\x7d\n"

theorem evaluateText_keepLines_sampleLines :
    let keep := fun line => (Snapshot.readChars? line).isSome
    let left := Text.keepLines keep sampleLines.toList
    ∃ service, start sampleSettings none .empty = .ok service ∧
      Snapshot.readChars? sampleLines.toList = none ∧
      Snapshot.readChars? left = some .empty ∧
      (Text.filledLines sampleLines.toList).map keep = [false, true] ∧
      ∃ decisions outputs,
        (service.evaluateText sampleLines (sampleMoment 1)).1 = .ok decisions ∧
        List.Forall₂ DecidedOn
          (atMoments (sampleMoment 1) (Text.filledLines sampleLines.toList)) decisions ∧
        (service.evaluateText (String.ofList left) (sampleMoment 2)).1 = .ok outputs ∧
        outputs.map Decision.unmeasured =
          (((Text.filledLines sampleLines.toList).zip decisions).filter
            fun entry => keep entry.1).map fun entry => entry.2.unmeasured := by
  intro keep left
  have hread : Snapshot.readChars? sampleLines.toList = none := by decide +kernel
  have hleft : Snapshot.readChars? left = some .empty := by decide +kernel
  have hlines : (Text.filledLines sampleLines.toList).map keep = [false, true] := by decide +kernel
  obtain ⟨service, hservice⟩ := exists_start_sampleSettings
  refine ⟨service, hservice, hread, hleft, hlines, ?_⟩
  refine evaluateText_keepLines (sound_of_start hservice) hread (fun _ _ => rfl) ?_
  intro k line moment hmoment
  have hentry := (List.mem_filter.1 (List.mem_of_getElem? hmoment)).1
  obtain ⟨i, hi, heq⟩ := List.mem_mapIdx.1 hentry
  obtain rfl : sampleMoment 1 i = moment := congrArg Prod.snd heq
  exact ⟨rfl, rfl, ⟨fun _ => rfl, fun _ => rfl⟩⟩

end Service

end TradeGate
