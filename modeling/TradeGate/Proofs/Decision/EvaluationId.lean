import TradeGate.Decision.Basic
import TradeGate.Proofs.Time.Timestamp

/-!
# What an evaluation id tells

The stamp in an evaluation id is a year and then only digits, so the hyphen behind it is found
although the text behind the hyphen may be anything. All fields but the year have their width, and
are split off from the back. So the id tells the microsecond and the front of the request id, and
no more (`evaluationId_eq_iff`).
-/

namespace TradeGate

-- Powers are those of the core library.
attribute [local instance (high)] instPowNat

namespace Instant

/-- The instants lie in one microsecond. A leap second is apart from the second after it. -/
def SameMicro (a b : Instant) : Prop := a.seconds = b.seconds ∧ a.nanos / 1000 = b.nanos / 1000

instance (a b : Instant) : Decidable (a.SameMicro b) := inferInstanceAs (Decidable (_ ∧ _))

theorem SameMicro.refl (a : Instant) : a.SameMicro a := ⟨rfl, rfl⟩

end Instant

/-! ## Stamps -/

namespace Date

theorem append_twoDigits_inj {front front' : List Char} {m n : Int} (hm : 0 ≤ m ∧ m < 100)
    (hn : 0 ≤ n ∧ n < 100) (h : front ++ twoDigits m = front' ++ twoDigits n) :
    front = front' ∧ m = n := by
  obtain ⟨hfront, hsame⟩ := Numeral.append_padded_inj (by decide) (by omega) (by omega) h
  exact ⟨hfront, by omega⟩

theorem yearChars_injective {m n : Int} (h : yearChars m = yearChars n) : m = n := by
  have hread : Timestamp.year (yearChars m ++ ['-']) = some (m, ['-']) := Timestamp.year_yearChars m
  rw [h, Timestamp.year_yearChars] at hread
  exact (congrArg Prod.fst (Option.some.inj hread)).symm

/-- A year starts with a digit or a sign, and goes on with digits. -/
theorem exists_cons_yearChars (year : Int) :
    ∃ c run, yearChars year = c :: run ∧ ∀ d ∈ run, d.isDigit = true := by
  unfold yearChars
  split
  · obtain ⟨c, run, hrun⟩ := List.exists_cons_of_ne_nil (Numeral.padded_ne_nil 4 year.toNat)
    refine ⟨c, run, hrun, fun d hd => ?_⟩
    have hmem : d ∈ Numeral.padded 4 year.toNat := by
      rw [hrun]
      exact List.mem_cons_of_mem c hd
    exact Numeral.isDigit_of_mem_padded hmem
  · exact ⟨_, _, rfl, fun d hd => Numeral.isDigit_of_mem_padded hd⟩

end Date

namespace Instant

open Timestamp (hour_mem minute_mem second_mem subsecond_mem secondOfDay_eq_fields nanos_eq_fields)

/-- The fields of a stamp behind the year. -/
def stampTail (t : Instant) : List Char :=
  Date.twoDigits t.date.civil.month ++ Date.twoDigits t.date.civil.day ++ Date.twoDigits t.hour ++
    Date.twoDigits t.minute ++ Date.twoDigits t.second ++
    Numeral.padded 6 (t.subsecond / 1000).toNat

theorem stampChars_eq (t : Instant) :
    t.stampChars = Date.yearChars t.date.civil.year ++ t.stampTail := by
  unfold stampChars stampTail
  simp only [List.append_assoc]

theorem isDigit_of_mem_stampTail {t : Instant} {c : Char} (h : c ∈ t.stampTail) :
    c.isDigit = true := by
  unfold stampTail at h
  simp only [List.mem_append] at h
  rcases h with ((((h | h) | h) | h) | h) | h
  all_goals exact Numeral.isDigit_of_mem_padded h

theorem exists_cons_stampChars (t : Instant) :
    ∃ c run, t.stampChars = c :: run ∧ ∀ d ∈ run, d.isDigit = true := by
  obtain ⟨c, run, hyear, hrun⟩ := Date.exists_cons_yearChars t.date.civil.year
  refine ⟨c, run ++ t.stampTail, ?_, ?_⟩
  · rw [stampChars_eq, hyear, List.cons_append]
  · exact List.forall_mem_append.2 ⟨hrun, fun d hd => isDigit_of_mem_stampTail hd⟩

/-- A stamp ends at the first hyphen behind its first character. -/
theorem stampChars_append_inj {a b : Instant} {front front' : List Char}
    (h : a.stampChars ++ '-' :: front = b.stampChars ++ '-' :: front') :
    a.stampChars = b.stampChars ∧ front = front' := by
  obtain ⟨c, run, ha, hrun⟩ := a.exists_cons_stampChars
  obtain ⟨c', run', hb, hrun'⟩ := b.exists_cons_stampChars
  rw [ha, hb, List.cons_append, List.cons_append] at h
  obtain ⟨rfl, hbehind⟩ := List.cons.inj h
  have hends : ∀ rest, Numeral.EndsRun ('-' :: rest) := Timestamp.endsRun_cons (by decide)
  have hspan := Numeral.span_append_of_isDigit hrun (hends front)
  rw [hbehind, Numeral.span_append_of_isDigit hrun' (hends front')] at hspan
  obtain ⟨hsame, hrest⟩ := Prod.mk.inj hspan
  exact ⟨by rw [ha, hb, hsame], (List.cons.inj hrest).2.symm⟩

/-- The fields that a stamp shows are the same. -/
structure SameFields (a b : Instant) : Prop where
  date_eq : a.date = b.date
  hour_eq : a.hour = b.hour
  minute_eq : a.minute = b.minute
  second_eq : a.second = b.second
  micro_eq : a.subsecond / 1000 = b.subsecond / 1000

theorem sameFields_of_stampChars_eq {a b : Instant} (h : a.stampChars = b.stampChars) :
    SameFields a b := by
  have ha := subsecond_mem a
  have hb := subsecond_mem b
  unfold stampChars at h
  obtain ⟨h, hmicro⟩ := Numeral.append_padded_inj (by decide) (by omega) (by omega) h
  obtain ⟨h, hsecond⟩ := Date.append_twoDigits_inj
    ((second_mem a).imp_right (by omega)) ((second_mem b).imp_right (by omega)) h
  obtain ⟨h, hminute⟩ := Date.append_twoDigits_inj
    ((minute_mem a).imp_right (by omega)) ((minute_mem b).imp_right (by omega)) h
  obtain ⟨h, hhour⟩ := Date.append_twoDigits_inj
    ((hour_mem a).imp_right (by omega)) ((hour_mem b).imp_right (by omega)) h
  obtain ⟨h, hday⟩ := Date.append_twoDigits_inj
    (a.date.civil_day_mem.imp (by omega) (by omega))
    (b.date.civil_day_mem.imp (by omega) (by omega)) h
  obtain ⟨h, hmonth⟩ := Date.append_twoDigits_inj
    (a.date.civil_month_mem.imp (by omega) (by omega))
    (b.date.civil_month_mem.imp (by omega) (by omega)) h
  have hcivil : a.date.civil = b.date.civil := by
    have hyear := Date.yearChars_injective h
    generalize a.date.civil = civil at hyear hmonth hday
    generalize b.date.civil = other at hyear hmonth hday
    cases civil
    cases other
    simp only at hyear hmonth hday
    rw [hyear, hmonth, hday]
  exact ⟨Date.civil_injective hcivil, hhour, hminute, hsecond, by omega⟩

theorem sameMicro_of_sameFields {a b : Instant} (h : SameFields a b) : a.SameMicro b := by
  obtain ⟨hdate, hhour, hminute, hsecond, hmicro⟩ := h
  have hday : a.secondOfDay = b.secondOfDay := by
    rw [← secondOfDay_eq_fields a, ← secondOfDay_eq_fields b, hhour, hminute, hsecond]
  have hnumber : a.seconds / secondsPerDay = b.seconds / secondsPerDay :=
    congrArg Date.dayNumber hdate
  have ha := nanos_eq_fields a
  have hb := nanos_eq_fields b
  have hlow := (subsecond_mem a).1
  have hlow' := (subsecond_mem b).1
  constructor
  · unfold secondOfDay secondsPerDay at hday
    unfold secondsPerDay at hnumber
    omega
  · rw [← ha, ← hb, hsecond]
    unfold nanosPerSecond
    split <;> omega

theorem stampChars_eq_of_sameMicro {a b : Instant} (h : a.SameMicro b) :
    a.stampChars = b.stampChars := by
  obtain ⟨hseconds, hnanos⟩ := h
  have hdate : a.date = b.date := congrArg (fun s => Date.mk (s / secondsPerDay)) hseconds
  have hday : a.secondOfDay = b.secondOfDay := congrArg (· % secondsPerDay) hseconds
  have hleap : a.isLeap = b.isLeap := by
    unfold isLeap nanosPerSecond
    exact decide_eq_decide.2 (by omega)
  have hmicro : a.subsecond / 1000 = b.subsecond / 1000 := by
    unfold subsecond nanosPerSecond
    omega
  unfold stampChars hour minute second
  rw [hdate, hday, hleap, hmicro]

theorem stampChars_eq_iff {a b : Instant} : a.stampChars = b.stampChars ↔ a.SameMicro b :=
  ⟨fun h => sameMicro_of_sameFields (sameFields_of_stampChars_eq h), stampChars_eq_of_sameMicro⟩

end Instant

/-! ## Ids -/

/-- The front of a request id, as it stands in an evaluation id. -/
def requestFront : Option String → List Char
  | some id => if id = "" then "UNKNOWN".toList else id.toList.take 8
  | none => "UNKNOWN".toList

theorem evaluationId_eq (now : Instant) (requestId : Option String) :
    evaluationId now requestId =
      String.ofList ("GUARD-".toList ++ (now.stampChars ++ '-' :: requestFront requestId)) := by
  unfold evaluationId
  dsimp only
  rw [List.append_assoc]
  rfl

/-- An evaluation id tells the microsecond and the front of the request id, and no more. -/
theorem evaluationId_eq_iff {a b : Instant} {request request' : Option String} :
    evaluationId a request = evaluationId b request' ↔
      a.SameMicro b ∧ requestFront request = requestFront request' := by
  rw [evaluationId_eq, evaluationId_eq, String.ofList_inj, List.append_cancel_left_eq]
  constructor
  · intro h
    obtain ⟨hstamp, hfront⟩ := Instant.stampChars_append_inj h
    exact ⟨Instant.stampChars_eq_iff.1 hstamp, hfront⟩
  · rintro ⟨hmicro, hfront⟩
    rw [Instant.stampChars_eq_of_sameMicro hmicro, hfront]

end TradeGate
