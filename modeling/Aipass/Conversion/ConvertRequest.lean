import Aipass.Conversion.AnthropicRequest
import Aipass.Conversion.MessagesRequest
import Aipass.Conversion.OpenAiRequest

/-!
# Converting a request

The converter is chosen by the pair of protocols; a request stays as it is within one protocol.
-/
namespace Aipass.Conversion

variable (serde : SerdeJson) (unique : ℕ → String)

/-- `convert`; `unique` are the identifiers `unique_id` returns. -/
def convert (from_ to_ : ProxyProtocol) (payload : Value) : Except ConversionError Value := do
  validateReasoningOrigin from_ payload
  match from_, to_ with
  | AM, CC => amToCc serde payload
  | AM, RS => amToRs serde payload
  | CC, AM => ccToAm serde payload
  | RS, AM => rsToAm serde payload
  | CC, RS | RS, CC => OpenAi.request serde unique from_ payload
  | _, _ => .error (.unsupported from_ to_)

/-- `convert_request`. -/
def convertRequest (from_ to_ : ProxyProtocol) (payload : Value) :
    Except ConversionError Value :=
  if from_ = to_ then .ok payload else convert serde unique from_ to_ payload

end Aipass.Conversion
