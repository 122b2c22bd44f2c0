import TradeGate.Json.Codec
import TradeGate.Reason

/-!
# Codecs of the vocabulary

Verdicts, severities, categories and reasons are written by their codes.
-/

namespace TradeGate.Codec

def verdict : Codec Verdict := named Verdict.all Verdict.code

def severity : Codec Severity := named Severity.all Severity.code

def category : Codec Category := named Category.all Category.code

def reason : Codec Reason := named Reason.all Reason.code

end TradeGate.Codec
