import TradeGate.Proofs.Audit.Unmeasured
import TradeGate.Proofs.Json.Printer
import TradeGate.Proofs.Json.Uses
import TradeGate.Proofs.Service.Sound
import TradeGate.Proofs.Text.Lines

/-!
# Texts and streams

A service answers a text as a whole or as a stream of lines. Line by line the two ways are the same
(`Service.answerLines_eq`), and a text that is one snapshot has that snapshot on its one line, if no
other line holds more than blanks (`Service.snapshotsOfText_eq`). So on such texts, and on those that
are not one snapshot, both ways come to the same decisions and leave the service alike, up to what
was measured and up to the ids of alerts (`Service.evaluateStream_agrees`). A stream may come in
parts that end with a line: it is answered as if it had come at once
(`Service.evaluateStream_append`).
-/

namespace TradeGate

namespace Service

/-! ## The snapshots of a text -/

/-- A text that is one snapshot has it on its line, if it has one line that is not blank. -/
theorem snapshotsOfText_eq {cs : List Char}
    (h : Snapshot.readChars? cs = none ∨ (Text.filledLines cs).length ≤ 1) :
    snapshotsOfText cs = snapshotsOfLines cs := by
  unfold snapshotsOfText
  cases hread : Snapshot.readChars? cs with
  | none => rfl
  | some snapshot =>
    have hcount : (Text.filledLines cs).length ≤ 1 :=
      h.resolve_left (by rw [hread]; exact Option.some_ne_none _)
    obtain ⟨value, hvalue, hsnapshot⟩ := Option.bind_eq_some_iff.1 hread
    unfold snapshotsOfLines
    cases hlines : Text.filledLines cs with
    | nil =>
      have hblank := Json.readChars?_eq_none_of_blank (Text.isBlankText_of_filledLines_eq_nil hlines)
      exact nomatch hblank.symm.trans hvalue
    | cons line others =>
      obtain rfl : others = [] := by
        rw [hlines, List.length_cons] at hcount
        exact List.length_eq_zero_iff.1 (by omega)
      obtain ⟨before, after, rfl, hbefore, hafter⟩ := Text.exists_blanks_around hlines
      have hline : Snapshot.readChars? line = some snapshot := by
        unfold Snapshot.readChars?
        rw [Json.readChars?_of_blanks_around hvalue hbefore hafter]
        exact hsnapshot
      rw [List.map_singleton, snapshotOfLine, hline, Option.getD_some]

/-! ## Line by line -/

theorem timed_cons (moments : Nat → Moment) (snapshot : Snapshot) (rest : List Snapshot) :
    timed moments (snapshot :: rest) =
      (snapshot, moments 0) :: timed (fun k => moments (k + 1)) rest :=
  List.mapIdx_cons

/-- The lines of a stream are answered as their snapshots are, and the decisions are written. -/
theorem answerLines_eq (moments : Nat → Moment) (written : Written) (stream : List Char)
    (service : Service) :
    answerLines moments written stream service =
      ((evaluateAll (timed (fun k => moments (written.count + k)) (snapshotsOfLines stream))
          service).1.map (·.foldl Written.add written),
        (evaluateAll (timed (fun k => moments (written.count + k)) (snapshotsOfLines stream))
          service).2) := by
  unfold snapshotsOfLines
  fun_induction answerLines moments written stream service with
  | case1 written stream service hline =>
    obtain rfl := Text.eq_nil_of_nextLine?_eq_none hline
    rfl
  | case2 written stream service line rest hline hblank ih =>
    rw [Text.filledLines_of_nextLine? hline, if_pos hblank]
    exact ih
  | case3 written stream service line rest hline hblank fault next hfault =>
    rw [Text.filledLines_of_nextLine? hline, if_neg hblank, List.map_cons, timed_cons,
      evaluateAll_cons, Nat.add_zero, hfault]
    rfl
  | case4 written stream service line rest hline hblank decision next hdecision ih =>
    have hcount : (fun k => moments ((written.add decision).count + k)) =
        fun k => moments (written.count + (k + 1)) := by
      funext k
      show moments (written.count + 1 + k) = _
      rw [Nat.add_assoc, Nat.add_comm 1 k]
    rw [hcount] at ih
    rw [Text.filledLines_of_nextLine? hline, if_neg hblank, List.map_cons, timed_cons,
      evaluateAll_cons, Nat.add_zero, hdecision, ih]
    dsimp only
    generalize evaluateAll _ next = result
    obtain ⟨answer, last⟩ := result
    cases answer <;> rfl

theorem answerLines_of_nextLine? {stream line rest : List Char}
    (h : Text.nextLine? stream = some (line, rest)) (moments : Nat → Moment) (written : Written)
    (service : Service) :
    answerLines moments written stream service =
      if Text.isBlankText line then answerLines moments written rest service
      else
        match service.evaluate (snapshotOfLine line) (moments written.count) with
        | (.error fault, next) => (.error fault, next)
        | (.ok decision, next) => answerLines moments (written.add decision) rest next := by
  rw [answerLines]
  split
  · rename_i hnone
    cases hnone.symm.trans h
  · rename_i hline
    obtain ⟨rfl, rfl⟩ := Prod.mk.inj (Option.some.inj (hline.symm.trans h))
    rfl

/-- What follows a whole text is answered behind it. -/
theorem answerLines_append (moments : Nat → Moment) (written : Written) {front : List Char}
    (hfront : Text.IsWhole front) (rest : List Char) (service : Service) :
    answerLines moments written (front ++ rest) service =
      match answerLines moments written front service with
      | (.error fault, next) => (.error fault, next)
      | (.ok written, next) => answerLines moments written rest next := by
  fun_induction answerLines moments written front service with
  | case1 written front service hline =>
    obtain rfl := Text.eq_nil_of_nextLine?_eq_none hline
    rfl
  | case2 written front service line behind hline hblank ih =>
    obtain ⟨happend, hbehind⟩ := Text.nextLine?_append hfront hline rest
    rw [answerLines_of_nextLine? happend, if_pos hblank]
    exact ih hbehind
  | case3 written front service line behind hline hblank fault next hfault =>
    obtain ⟨happend, -⟩ := Text.nextLine?_append hfront hline rest
    rw [answerLines_of_nextLine? happend, if_neg hblank, hfault]
  | case4 written front service line behind hline hblank decision next hdecision ih =>
    obtain ⟨happend, hbehind⟩ := Text.nextLine?_append hfront hline rest
    rw [answerLines_of_nextLine? happend, if_neg hblank, hdecision]
    exact ih hbehind

/-! ## What is written -/

/-- The text holds the decisions, each on a line of its own, and their number is told. -/
structure Written.Holds (written : Written) (decisions : List Decision) : Prop where
  count_eq : written.count = decisions.length
  toList_text : written.text.toList =
    decisions.flatMap fun decision => decision.toJson.compact.toList ++ ['\n']
  lines_text : Text.lines written.text.toList =
    decisions.map fun decision => decision.toJson.compact.toList

theorem foldl_add (decisions : List Decision) (written : Written) :
    (decisions.foldl Written.add written).count = written.count + decisions.length ∧
      (decisions.foldl Written.add written).text.toList = written.text.toList ++
        decisions.flatMap fun decision => decision.toJson.compact.toList ++ ['\n'] := by
  induction decisions generalizing written with
  | nil => exact ⟨rfl, (List.append_nil _).symm⟩
  | cons decision rest ih =>
    obtain ⟨hcount, htext⟩ := ih (written.add decision)
    rw [List.foldl_cons, hcount, htext]
    constructor
    · show written.count + 1 + rest.length = _
      rw [List.length_cons]
      omega
    · simp [Written.add, String.toList_append]

theorem holds_foldl_add (decisions : List Decision) :
    (decisions.foldl Written.add .nothing).Holds decisions := by
  obtain ⟨hcount, htext⟩ := foldl_add decisions .nothing
  refine ⟨hcount.trans (Nat.zero_add _), htext, ?_⟩
  have hlines : ∀ line ∈ decisions.map fun decision => decision.toJson.compact.toList,
      '\n' ∉ line := by
    intro line hline
    obtain ⟨decision, -, rfl⟩ := List.mem_map.1 hline
    exact Json.newline_not_mem_compact _
  have hread := Text.lines_flatMap hlines
  rw [List.flatMap_map] at hread
  rw [htext]
  exact hread

/-- What is written behind something else. -/
def Written.append (written others : Written) : Written :=
  ⟨written.text ++ others.text, written.count + others.count⟩

namespace Written

variable (written others : Written)

theorem append_nothing : written.append .nothing = written := by
  simp [append, nothing]

theorem append_add (decision : Decision) :
    (written.append others).add decision = written.append (others.add decision) := by
  simp [append, add, String.append_assoc, Nat.add_assoc]

theorem append_foldl_add (decisions : List Decision) :
    decisions.foldl add (written.append others) = written.append (decisions.foldl add others) := by
  induction decisions generalizing others with
  | nil => rfl
  | cons decision rest ih => rw [List.foldl_cons, append_add, ih, List.foldl_cons]

end Written

/-- What is answered does not depend on what has been written, but for the moments. -/
theorem answerLines_eq_append (moments : Nat → Moment) (written : Written) (stream : List Char)
    (service : Service) :
    answerLines moments written stream service =
      ((answerLines (fun k => moments (written.count + k)) .nothing stream service).1.map
          written.append,
        (answerLines (fun k => moments (written.count + k)) .nothing stream service).2) := by
  have hcount : (fun k => moments (written.count + (Written.nothing.count + k))) =
      fun k => moments (written.count + k) := by
    funext k
    rw [show Written.nothing.count = 0 from rfl, Nat.zero_add]
  rw [answerLines_eq moments, answerLines_eq _ .nothing, hcount]
  generalize evaluateAll _ service = result
  obtain ⟨answer, next⟩ := result
  cases answer with
  | error fault => rfl
  | ok decisions =>
    have hbehind := written.append_foldl_add .nothing decisions
    rw [written.append_nothing] at hbehind
    exact congrArg (fun written => (Except.ok written, next)) hbehind

/-- A stream whose lines come one after the other is answered like the whole stream: what follows a
text that ends its last line is answered by the service that the text leaves, and written behind
what answers the text. -/
theorem evaluateStream_append (service : Service) {front : String}
    (hfront : Text.IsWhole front.toList) (rest : String) (moments : Nat → Moment) :
    service.evaluateStream (front ++ rest) moments =
      match service.evaluateStream front moments with
      | (.error fault, next) => (.error fault, next)
      | (.ok written, next) =>
        ((next.evaluateStream rest fun k => moments (written.count + k)).1.map written.append,
          (next.evaluateStream rest fun k => moments (written.count + k)).2) := by
  unfold evaluateStream
  rw [String.toList_append, answerLines_append moments .nothing hfront]
  generalize answerLines moments .nothing front.toList service = result
  obtain ⟨answer, next⟩ := result
  cases answer with
  | error fault => rfl
  | ok written => exact answerLines_eq_append moments written rest.toList next

/-! ## Services that are alike -/

/-- The moments have the same readings of the clock, and times on the same sides of the limits. -/
structure Moment.Alike (timing : TimingPolicy) (moment other : Moment) : Prop where
  now_eq : moment.now = other.now
  later_eq : moment.later = other.later
  sameSides : moment.watch.SameSides timing other.watch

/-- The services are the same up to what was measured and up to the ids of alerts; what is counted
is left out. -/
structure Alike (service other : Service) : Prop where
  settings_eq : service.settings = other.settings
  audited : service.audited.Alike other.audited

theorem alike_refl (service : Service) : service.Alike service := ⟨rfl, service.audited.alike_refl⟩

variable {service other : Service}

theorem Sound.ignoresTimes (h : service.Sound) : service.audited.IgnoresTimes := by
  obtain ⟨notifier, hnotifier, hsuits⟩ := h.exists_notifier
  intro notifier' hnotifier' send hsend
  obtain rfl : notifier = notifier' := Option.some.inj (hnotifier.symm.trans hnotifier')
  rw [hsuits.sender_eq, Option.mem_def] at hsend
  unfold sender at hsend
  split at hsend
  · rw [← Option.some.inj hsend]
    exact Sender.ignoresTimes_delivering
  · exact nomatch hsend

theorem Sound.of_alike (hsound : service.Sound) (h : service.Alike other) : other.Sound := by
  obtain ⟨notifier, hnotifier, hsuits⟩ := hsound.exists_notifier
  have hrel := h.audited.notifier
  rw [hnotifier] at hrel
  cases hother : other.audited.notifier with
  | none =>
    rw [hother] at hrel
    exact nomatch hrel
  | some notifier' =>
    rw [hother] at hrel
    cases hrel with
    | some hrel =>
      have hgate := hsound.gate_eq
      rw [h.audited.gate_eq] at hgate
      rw [h.audited.gate_eq, h.settings_eq] at hsuits
      exact ⟨hgate, notifier', hother, ⟨hrel.policy_eq ▸ hsuits.policy_eq, hrel.sender_eq ▸ hsuits.sender_eq,
        hrel.limiter_eq ▸ hsuits.minInterval_eq, hrel.limiter_eq ▸ hsuits.maxPerHour_eq⟩⟩

/-- Services that are alike decide alike and stay alike. -/
theorem Alike.evaluate (h : service.Alike other) (hsound : other.Sound) (snapshot : Snapshot)
    {moment moment' : Moment} (hmoment : moment.Alike other.audited.gate.policy.timing moment') :
    (service.evaluate snapshot moment).1.map Decision.unmeasured =
        (other.evaluate snapshot moment').1.map Decision.unmeasured ∧
      (service.evaluate snapshot moment).2.Alike (other.evaluate snapshot moment').2 := by
  obtain ⟨now, later, watch, id⟩ := moment
  obtain ⟨now', later', watch', id'⟩ := moment'
  obtain ⟨rfl, rfl, htimes⟩ := hmoment
  obtain ⟨hanswer, hnext⟩ := h.audited.evaluateAt hsound.ignoresTimes ReplayWindow.size snapshot now
    later htimes id id'
  refine ⟨?_, h.settings_eq, hnext⟩
  have hmap : ∀ answer : Except SpanFault AuditedGate.Answer,
      (answer.map AuditedGate.Answer.decision).map Decision.unmeasured =
        (answer.map AuditedGate.Answer.unmeasured).map AuditedGate.Answer.decision := by
    intro answer
    cases answer <;> rfl
  exact (hmap _).trans ((congrArg (Except.map AuditedGate.Answer.decision) hanswer).trans
    (hmap _).symm)

theorem Alike.evaluateAll (h : service.Alike other) (hsound : service.Sound) (hother : other.Sound)
    (snapshots : List Snapshot) {moments others : Nat → Moment}
    (hmoments : ∀ k, (moments k).Alike other.audited.gate.policy.timing (others k)) :
    ∃ decisions outputs, (evaluateAll (timed moments snapshots) service).1 = .ok decisions ∧
      (evaluateAll (timed others snapshots) other).1 = .ok outputs ∧
      outputs.map Decision.unmeasured = decisions.map Decision.unmeasured ∧
      (evaluateAll (timed moments snapshots) service).2.Alike
        (evaluateAll (timed others snapshots) other).2 := by
  induction snapshots generalizing service other moments others with
  | nil => exact ⟨[], [], rfl, rfl, rfl, h⟩
  | cons snapshot rest ih =>
    obtain ⟨⟨decision, hdecision⟩, -, hnext⟩ := hsound.evaluate snapshot (moments 0)
    obtain ⟨⟨output, houtput⟩, hgate, hnextOther⟩ := hother.evaluate snapshot (others 0)
    obtain ⟨hsame, halike⟩ := h.evaluate hother snapshot (hmoments 0)
    rw [hdecision, houtput] at hsame
    rw [timed_cons, timed_cons, evaluateAll_cons, evaluateAll_cons]
    generalize service.evaluate snapshot (moments 0) = result at *
    generalize other.evaluate snapshot (others 0) = result' at *
    obtain ⟨answer, next⟩ := result
    obtain ⟨answer', next'⟩ := result'
    obtain rfl : answer = .ok decision := hdecision
    obtain rfl : answer' = .ok output := houtput
    have htail : ∀ k, (moments (k + 1)).Alike next'.audited.gate.policy.timing (others (k + 1)) := by
      rw [hgate]
      exact fun k => hmoments (k + 1)
    obtain ⟨decisions, outputs, hdecisions, houtputs, hrest, hlast⟩ :=
      ih halike hnext hnextOther htail
    refine ⟨decision :: decisions, output :: outputs, congrArg (Except.map _) hdecisions,
      congrArg (Except.map _) houtputs, ?_, hlast⟩
    rw [List.map_cons, List.map_cons, hrest, Except.ok.inj hsame]

/-- Services that are alike come to the same decisions on a text, up to what was measured, whether
it is given whole or as a stream, and stay alike. The stream is answered with one decision a line. -/
theorem evaluateStream_agrees (hsound : service.Sound) (h : service.Alike other) {text : String}
    (htext : Snapshot.readChars? text.toList = none ∨ (Text.filledLines text.toList).length ≤ 1)
    {moments others : Nat → Moment}
    (hmoments : ∀ k, (moments k).Alike service.audited.gate.policy.timing (others k)) :
    ∃ decisions outputs written,
      (service.evaluateText text moments).1 = .ok decisions ∧
      (other.evaluateStream text others).1 = .ok written ∧ written.Holds outputs ∧
      outputs.map Decision.unmeasured = decisions.map Decision.unmeasured ∧
      (service.evaluateText text moments).2.Alike (other.evaluateStream text others).2 := by
  rw [h.audited.gate_eq] at hmoments
  obtain ⟨decisions, outputs, hdecisions, houtputs, hsame, hlast⟩ :=
    h.evaluateAll hsound (hsound.of_alike h) (snapshotsOfLines text.toList) hmoments
  have hstream := answerLines_eq others .nothing text.toList other
  have hcount : (fun k => others (Written.nothing.count + k)) = others :=
    funext fun k => congrArg others (Nat.zero_add k)
  rw [hcount] at hstream
  unfold evaluateText evaluateStream
  rw [snapshotsOfText_eq htext, hstream]
  exact ⟨decisions, outputs, _, hdecisions, congrArg (Except.map _) houtputs,
    holds_foldl_add outputs, hsame, hlast⟩

/-! ## A sample text -/

/-- Standard settings without files. -/
def sampleSettings : Settings where
  preset := .standard
  guard := .empty
  persistence := { PersistenceSettings.standard with enabled := false }
  alerts := .standard

theorem exists_start_sampleSettings : ∃ service, start sampleSettings none .empty = .ok service := by
  have hstart : (start sampleSettings none .empty).isOk = true := by decide +kernel
  cases hservice : start sampleSettings none .empty with
  | error error =>
    rw [hservice] at hstart
    exact nomatch hstart
  | ok service => exact ⟨service, rfl⟩

/-- An empty snapshot, a line that is no snapshot, and an empty snapshot again, with lines of blanks
in between, carriage returns, and no line feed at the end. -/
def sampleText : String := " \r\n\x7b\x7d\r\n\u00a0\nno snapshot\n\x7b \x7d\r"

/-- A moment at the start of 1970 at which some milliseconds are measured in all. -/
def sampleMoment (total : Nat) (k : Nat) : Moment where
  now := .epoch
  later := .epoch
  watch := { Stopwatch.still with total := .ofNat total }
  id := .ofNat k

theorem evaluateStream_agrees_sampleText :
    ∃ service, start sampleSettings none .empty = .ok service ∧
      Snapshot.readChars? sampleText.toList = none ∧
      (Text.filledLines sampleText.toList).length = 3 ∧
      ∃ decisions outputs written,
        (service.evaluateText sampleText (sampleMoment 1)).1 = .ok decisions ∧
        (service.evaluateStream sampleText (sampleMoment 2)).1 = .ok written ∧
        written.Holds outputs ∧
        outputs.map Decision.unmeasured = decisions.map Decision.unmeasured ∧
        (service.evaluateText sampleText (sampleMoment 1)).2.Alike
          (service.evaluateStream sampleText (sampleMoment 2)).2 := by
  have hread : (Snapshot.readChars? sampleText.toList).isNone = true := by decide +kernel
  have hlines : (Text.filledLines sampleText.toList).length = 3 := by decide +kernel
  obtain ⟨service, hservice⟩ := exists_start_sampleSettings
  have hnone := Option.isNone_iff_eq_none.1 hread
  refine ⟨service, hservice, hnone, hlines, ?_⟩
  exact evaluateStream_agrees (sound_of_start hservice) service.alike_refl (.inl hnone) fun _ =>
    ⟨rfl, rfl, ⟨fun _ => rfl, fun _ => rfl⟩⟩

end Service

end TradeGate
