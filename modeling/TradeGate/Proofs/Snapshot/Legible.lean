import Mathlib.Data.List.ReduceOption
import TradeGate.Proofs.Audit.Legible
import TradeGate.Proofs.Json.Pretty
import TradeGate.Snapshot.Codec

/-!
# Snapshots are read back

Every field of every section is read back as it was written, be it required, missing, null or left
out (`Snapshot.recovers`). What it takes is that the numbers and the amounts of the snapshot are read
back from their texts (`Snapshot.Legible`); whole numbers, texts and times always are.
-/

namespace TradeGate

namespace Codec

variable {α : Type} {codec : Codec α}

/-- Every value is read back, and none is written as null. -/
structure Total (codec : Codec α) : Prop where
  recovers : ∀ a, codec.Recovers a
  encode_ne_null : ∀ a, codec.encode a ≠ .null

theorem Total.option (h : codec.Total) (value : Option α) : codec.option.Recovers value :=
  recovers_option fun a _ => ⟨h.recovers a, h.encode_ne_null a⟩

theorem total_string : string.Total := ⟨recovers_string, nofun⟩

theorem total_bool : bool.Total := ⟨recovers_bool, nofun⟩

theorem total_uint8 : uint8.Total := ⟨recovers_uint8, nofun⟩

theorem total_uint32 : uint32.Total := ⟨recovers_uint32, nofun⟩

theorem total_instant : instant.Total :=
  ⟨recovers_instant, fun t => (nofun : Json.str t.text ≠ .null)⟩

/-- Numbers of a list are read back where they may be missing. -/
theorem recovers_binary64s {values : List (Option Binary64)}
    (h : ∀ x ∈ values.reduceOption, x.Legible) {value : Option Binary64} (hvalue : value ∈ values) :
    binary64.option.Recovers value := by
  refine recovers_option fun x hx => ?_
  have hlegible := h x (List.reduceOption_mem_iff.2 (hx ▸ hvalue))
  refine ⟨recovers_binary64 hlegible, fun hnull => ?_⟩
  have hencode : binary64.encode x = .float x := if_pos hlegible.1
  exact nomatch hencode.symm.trans hnull

/-- Amounts of a list are read back where they may be missing. -/
theorem recovers_amounts {values : List (Option Amount)}
    (h : ∀ x ∈ values.reduceOption, Amount.read? x.text = some x) {value : Option Amount}
    (hvalue : value ∈ values) : amount.option.Recovers value :=
  recovers_option fun x hx =>
    ⟨recovers_amount (h x (List.reduceOption_mem_iff.2 (hx ▸ hvalue))), nofun⟩

/-- A section is read back where it may be missing. -/
theorem recovers_section {record : Record α α} {value : Option α}
    (h : ∀ a, value = some a → (record.codec false).Recovers a) :
    (record.codec false).option.Recovers value :=
  recovers_option fun a ha => ⟨h a ha, nofun⟩

end Codec

open Codec

/-! ## Sections -/

namespace SystemState

/-- The numbers of the section. -/
def floats (s : SystemState) : List Binary64 :=
  [s.symbolCoveragePct, s.featurePipelineLagSeconds, s.clockDriftMs].reduceOption

theorem recovers {s : SystemState} (h : ∀ x ∈ s.floats, x.Legible) :
    (record.codec false).Recovers s := by
  refine Record.recovers (by decide) rfl ?_
  have hstart : (Record.start SystemState.mk).Recovers s := trivial
  exact hstart
    |>.required (recovers_bool _)
    |>.required (recovers_instant _)
    |>.optional (recovers_binary64s h (by simp))
    |>.required (recovers_bool _)
    |>.optional (recovers_binary64s h (by simp))
    |>.optional (recovers_binary64s h (by simp))
    |>.required (recovers_bool _)

end SystemState

namespace ExecutionHealth

/-- The numbers of the section. -/
def floats (s : ExecutionHealth) : List Binary64 :=
  [s.exchangeLatencyMs, s.rateLimitUtilization, s.orderSuccessRate1h, s.networkLatencyMs].reduceOption

theorem recovers {s : ExecutionHealth} (h : ∀ x ∈ s.floats, x.Legible) :
    (record.codec false).Recovers s := by
  refine Record.recovers (by decide) rfl ?_
  have hstart : (Record.start ExecutionHealth.mk).Recovers s := trivial
  exact hstart
    |>.required (recovers_bool _)
    |>.optional (total_string.option _)
    |>.optional (recovers_binary64s h (by simp))
    |>.optional (total_uint32.option _)
    |>.optional (recovers_binary64s h (by simp))
    |>.optional (recovers_binary64s h (by simp))
    |>.optional (total_uint32.option _)
    |>.optional (total_uint32.option _)
    |>.optional (total_uint32.option _)
    |>.optional (total_uint32.option _)
    |>.optional (recovers_binary64s h (by simp))
    |>.optional (total_bool.option _)

end ExecutionHealth

/-- A section without numbers and amounts is always read back. -/
theorem HaltState.recovers (s : HaltState) : (HaltState.record.codec false).Recovers s := by
  refine Record.recovers (by decide) rfl ?_
  have hstart : (Record.start HaltState.mk).Recovers s := trivial
  exact hstart
    |>.required (recovers_bool _)
    |>.optional (total_string.option _)
    |>.optional (total_instant.option _)
    |>.defaulted (recovers_bool _)
    |>.optional (total_string.option _)
    |>.optional (total_instant.option _)
    |>.defaulted (recovers_bool _)
    |>.optional (total_instant.option _)
    |>.defaulted (recovers_bool _)
    |>.optional (total_instant.option _)
    |>.optional (total_string.option _)

namespace AccountState

/-- The numbers of the section. -/
def floats (s : AccountState) : List Binary64 := [s.marginRatio].reduceOption

/-- The amounts of the section. -/
def amounts (s : AccountState) : List Amount :=
  [s.systemEquity, s.exchangeEquity, s.availableBalance].reduceOption

theorem recovers {s : AccountState} (h : ∀ x ∈ s.floats, x.Legible)
    (hamounts : ∀ x ∈ s.amounts, Amount.read? x.text = some x) :
    (record.codec false).Recovers s := by
  refine Record.recovers (by decide) rfl ?_
  have hstart : (Record.start AccountState.mk).Recovers s := trivial
  exact hstart
    |>.optional (total_uint32.option _)
    |>.optional (total_uint32.option _)
    |>.optional (recovers_amounts hamounts (by simp))
    |>.optional (recovers_amounts hamounts (by simp))
    |>.optional (recovers_amounts hamounts (by simp))
    |>.optional (total_string.option _)
    |>.optional (recovers_binary64s h (by simp))
    |>.optional (total_instant.option _)

end AccountState

namespace MarketContext

/-- The numbers of the section. -/
def floats (s : MarketContext) : List Binary64 :=
  [s.riskScore, s.currentVolatility, s.liquidityScore, s.currentSpreadPct].reduceOption

theorem recovers {s : MarketContext} (h : ∀ x ∈ s.floats, x.Legible) :
    (record.codec false).Recovers s := by
  refine Record.recovers (by decide) rfl ?_
  have hstart : (Record.start MarketContext.mk).Recovers s := trivial
  exact hstart
    |>.optional (total_string.option _)
    |>.optional (recovers_binary64s h (by simp))
    |>.optional (total_uint8.option _)
    |>.optional (total_string.option _)
    |>.defaulted (recovers_bool _)
    |>.optional (total_instant.option _)
    |>.optional (total_string.option _)
    |>.optional (recovers_binary64s h (by simp))
    |>.optional (recovers_binary64s h (by simp))
    |>.optional (recovers_binary64s h (by simp))
    |>.defaulted (recovers_bool _)
    |>.defaulted (recovers_bool _)

end MarketContext

/-! ## Snapshots -/

namespace Snapshot

/-- The numbers of a snapshot. -/
def floats (snapshot : Snapshot) : List Binary64 :=
  snapshot.systemState.toList.flatMap SystemState.floats ++
    snapshot.executionHealth.toList.flatMap ExecutionHealth.floats ++
    snapshot.accountState.toList.flatMap AccountState.floats ++
    snapshot.environmentalContext.toList.flatMap MarketContext.floats

/-- The amounts of a snapshot. -/
def amounts (snapshot : Snapshot) : List Amount :=
  snapshot.tradeIntent.toList.map TradeIntent.requestedSize ++
    snapshot.accountState.toList.flatMap AccountState.amounts

/-- The numbers are finite, and they and the amounts are read back from their texts. -/
structure Legible (snapshot : Snapshot) : Prop where
  floats : ∀ x ∈ snapshot.floats, x.Legible
  amounts : ∀ x ∈ snapshot.amounts, Amount.read? x.text = some x

instance (snapshot : Snapshot) : Decidable snapshot.Legible :=
  decidable_of_iff ((∀ x ∈ snapshot.floats, x.Legible) ∧
    ∀ x ∈ snapshot.amounts, Amount.read? x.text = some x)
    ⟨fun h => ⟨h.1, h.2⟩, fun h => ⟨h.floats, h.amounts⟩⟩

theorem recovers {snapshot : Snapshot} (h : snapshot.Legible) : codec.Recovers snapshot := by
  obtain ⟨hfloats, hamounts⟩ := h
  simp only [floats, amounts, List.forall_mem_append, List.mem_flatMap, List.mem_map,
    Option.mem_toList] at hfloats hamounts
  obtain ⟨⟨⟨hsystem, hexecution⟩, haccount⟩, hmarket⟩ := hfloats
  have hintent : TradeIntent.codec.option.Recovers snapshot.tradeIntent :=
    recovers_section fun s hs => TradeIntent.recovers (hamounts.1 _ ⟨s, hs, rfl⟩)
  have hsystem : (SystemState.record.codec false).option.Recovers snapshot.systemState :=
    recovers_section fun s hs => SystemState.recovers fun x hx => hsystem x ⟨s, hs, hx⟩
  have hexecution : (ExecutionHealth.record.codec false).option.Recovers snapshot.executionHealth :=
    recovers_section fun s hs => ExecutionHealth.recovers fun x hx => hexecution x ⟨s, hs, hx⟩
  have hhalt : (HaltState.record.codec false).option.Recovers snapshot.haltState :=
    recovers_section fun s _ => s.recovers
  have haccount : (AccountState.record.codec false).option.Recovers snapshot.accountState :=
    recovers_section fun s hs => AccountState.recovers (fun x hx => haccount x ⟨s, hs, hx⟩)
      fun x hx => hamounts.2 x ⟨s, hs, hx⟩
  have hmarket : (MarketContext.record.codec false).option.Recovers snapshot.environmentalContext :=
    recovers_section fun s hs => MarketContext.recovers fun x hx => hmarket x ⟨s, hs, hx⟩
  refine Record.recovers (by decide) rfl ?_
  have hstart : (Record.start Snapshot.mk).Recovers snapshot := trivial
  exact hstart
    |>.optional hintent
    |>.optional hsystem
    |>.optional hexecution
    |>.optional hhalt
    |>.optional haccount
    |>.optional hmarket

/-- The text of a snapshot is its line or its lines. -/
theorem toList_encode {snapshot : Snapshot} {text : String}
    (htext : text = (codec.encode snapshot).compact ∨ text = (codec.encode snapshot).pretty) :
    text.toList = (codec.encode snapshot).chars ∨
      text.toList = Json.prettyChars 0 (codec.encode snapshot) := by
  rcases htext with rfl | rfl
  · exact .inl String.toList_ofList
  · exact .inr String.toList_ofList

/-- A snapshot is read back from its line and from its lines. -/
theorem readChars?_encode {snapshot : Snapshot} (h : snapshot.Legible) {cs : List Char}
    (hcs : cs = (codec.encode snapshot).chars ∨ cs = Json.prettyChars 0 (codec.encode snapshot)) :
    readChars? cs = some snapshot := by
  have hrecovers := recovers h
  unfold readChars?
  have hread : Json.readChars? cs = some (codec.encode snapshot) := by
    rw [← hrecovers.legible.reread_eq]
    rcases hcs with rfl | rfl
    · exact Json.readChars?_chars _
    · exact Json.readChars?_prettyChars _ 0
  rw [hread]
  exact hrecovers.decode_encode

end Snapshot

end TradeGate
