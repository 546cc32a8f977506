import Aipass.Conversion.Protocol

/-!
# Token usage on the wire

A stream reports its counters in several events; the accumulator merges them field by field,
keeping the last counter seen. The three converters of usage rename the counters between the
protocols.
-/
namespace Aipass.Conversion

mutual

/-- `merge`: write the counters of an update over a total. -/
def merge (total : Value) : Value → Value
  | .object fields =>
    mergeFields (match total with | .object held => .object held | _ => .object []) fields
  | _ => total

/-- The loop of `merge` over the fields of the update. -/
def mergeFields (total : Value) : List (String × Value) → Value
  | [] => total
  | (key, .object fields) :: rest =>
    mergeFields (total.set key (merge (total.field key) (.object fields))) rest
  | (key, value) :: rest =>
    mergeFields (if value.asU64.isSome then total.set key value else total) rest

end

/-- `UsageAccumulator`. -/
structure UsageAccumulator where
  /-- The counters merged so far. -/
  wire : Value := .null

/-- `UsageAccumulator::update`. -/
def UsageAccumulator.update (held : UsageAccumulator) (usage : Value) : UsageAccumulator :=
  { wire := merge held.wire usage }

/-- `UsageAccumulator::observe`. -/
def UsageAccumulator.observe (held : UsageAccumulator) (protocol : ProxyProtocol)
    (payload : Value) : UsageAccumulator :=
  let nested := match protocol with
    | AM => payload.get "message"
    | RS => payload.get "response"
    | CC => none
  let held := match nested.bind fun value => value.get "usage" with
    | some usage => held.update usage
    | none => held
  match payload.get "usage" with
  | some usage => held.update usage
  | none => held

/-- `u64::saturating_add`. -/
def saturatingAdd (left right : ℕ) : ℕ := min (left + right) (2 ^ 64 - 1)

/-- `am_usage_to_openai`. -/
def amUsageToOpenai (usage : Option Value) (inputKey outputKey detailsKey : String) : Value :=
  let usage := usage.getD .null
  let input := number (usage.get "input_tokens")
  let output := number (usage.get "output_tokens")
  let cacheRead := number (usage.get "cache_read_input_tokens")
  let cacheCreation := number (usage.get "cache_creation_input_tokens")
  let totalInput := saturatingAdd (saturatingAdd input cacheRead) cacheCreation
  let details := Value.obj
    [("cached_tokens", .nat cacheRead), ("cache_creation_tokens", .nat cacheCreation)]
  let details :=
    match (usage.pointer ["cache_creation", "ephemeral_1h_input_tokens"]).bind Value.asU64 with
    | some hour => details.set "cache_creation_1h_tokens" (.nat (min hour cacheCreation))
    | none => details
  Value.obj
    [(inputKey, .nat totalInput), (outputKey, .nat output),
      ("total_tokens", .nat (saturatingAdd totalInput output)), (detailsKey, details)]

/-- `openai_usage_to_am`. -/
def openaiUsageToAm (usage : Option Value) (inputKey detailsKey : String) : Value :=
  let usage := usage.getD .null
  let totalInput := number (usage.get inputKey)
  let cacheRead := number (usage.pointer [detailsKey, "cached_tokens"])
  let cacheCreation := number (usage.pointer [detailsKey, "cache_creation_tokens"])
  let result := Value.obj
    [("input_tokens", .nat (totalInput - cacheRead - cacheCreation)),
      ("output_tokens",
        .nat (max (number (usage.get "output_tokens")) (number (usage.get "completion_tokens")))),
      ("cache_read_input_tokens", .nat cacheRead),
      ("cache_creation_input_tokens", .nat cacheCreation)]
  match (usage.pointer [detailsKey, "cache_creation_1h_tokens"]).bind Value.asU64 with
  | some hour =>
    let hour := min hour cacheCreation
    result.set "cache_creation" (.obj
      [("ephemeral_1h_input_tokens", .nat hour),
        ("ephemeral_5m_input_tokens", .nat (cacheCreation - hour))])
  | none => result

/-- The names of the counters in one of the OpenAI formats. -/
structure UsageKeys where
  /-- Tokens read. -/
  input : String
  /-- Tokens written. -/
  output : String
  /-- What the tokens read consist of. -/
  details : String
  /-- What the tokens written consist of. -/
  outputDetails : String

/-- The counters of a Chat Completions usage. -/
def chatKeys : UsageKeys :=
  ⟨"prompt_tokens", "completion_tokens", "prompt_tokens_details", "completion_tokens_details"⟩

/-- The counters of a Responses usage. -/
def responsesKeys : UsageKeys :=
  ⟨"input_tokens", "output_tokens", "input_tokens_details", "output_tokens_details"⟩

/-- `usage`: rename the counters between the OpenAI formats. The total wraps as a machine word
does. -/
def usage (value : Value) (target : ProxyProtocol) : Value :=
  let source := if target = RS then chatKeys else responsesKeys
  let keys := if target = RS then responsesKeys else chatKeys
  let input := number (value.get source.input)
  let output := number (value.get source.output)
  let renamed := Value.obj
    [("total_tokens", .nat ((input + output) % 2 ^ 64)), (keys.input, .nat input), (keys.output, .nat output)]
  let renamed := match value.get source.details with
    | some detail => renamed.set keys.details detail
    | none => renamed
  match value.get source.outputDetails with
  | some detail => renamed.set keys.outputDetails detail
  | none => renamed

end Aipass.Conversion
