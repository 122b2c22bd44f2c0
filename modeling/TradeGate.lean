import TradeGate.Main
import TradeGate.Metrics.Text
import TradeGate.Proofs.Gate.FailClosed
import TradeGate.Proofs.Gate.Relaxation
import TradeGate.Proofs.Gate.Separation
import TradeGate.Proofs.Gate.ByTable
import TradeGate.Proofs.AuditedGate
import TradeGate.Proofs.Audit.LineWriter
import TradeGate.Proofs.ReplayWindow.Sliding
import TradeGate.Proofs.Audit.Operation
import TradeGate.Proofs.Time.Cutoff
import TradeGate.Proofs.Audit.Retention
import TradeGate.Proofs.Audit.Refinement
import TradeGate.Proofs.Json.Reader
import TradeGate.Proofs.Time.Calendar
import TradeGate.Proofs.Time.Timestamp
import TradeGate.Proofs.Json.Codec
import TradeGate.Proofs.Audit.Legible
import TradeGate.Proofs.Audit.DayFiles
import TradeGate.Proofs.Audit.Shelf
import TradeGate.Proofs.Audit.Recovery
import TradeGate.Proofs.Alert.Delivery
import TradeGate.Proofs.Audit.Statistics
import TradeGate.Proofs.Policy.Override
import TradeGate.Proofs.Service.Stream
import TradeGate.Proofs.Service.WireForm
import TradeGate.Proofs.Service.Isolation
import TradeGate.Proofs.AuditedGate.Cap
import TradeGate.Proofs.AuditedGate.Lookup
import TradeGate.Proofs.Check.Equity
import TradeGate.Proofs.Alert.History
import TradeGate.Proofs.Json.Dialect
import TradeGate.Proofs.Policy.Defaults
import TradeGate.Proofs.Json.Composition
import TradeGate.Proofs.Number.AmountText
import TradeGate.Proofs.Policy.Composition
import TradeGate.Proofs.Audit.Cleanup
import TradeGate.Proofs.Audit.Blocks
import TradeGate.Proofs.ReplayWindow.SetBack
import TradeGate.Proofs.Number.Nearest
import TradeGate.Proofs.Audit.Times
import TradeGate.Proofs.Audit.Aggregate
import TradeGate.Proofs.Alert.Fault
import TradeGate.Proofs.Alert.Retry
import TradeGate.Proofs.Decision.IdOrder
import TradeGate.Proofs.Service.Retold
import TradeGate.Proofs.Policy.TradingHours
import TradeGate.Proofs.Gate.Ceiling
import TradeGate.Proofs.Audit.ActiveDays
import TradeGate.Proofs.Audit.BothFiles
import TradeGate.Proofs.ReplayWindow.AnyClock
import TradeGate.Proofs.Check.Freshness
import TradeGate.Proofs.Alert.Lines
