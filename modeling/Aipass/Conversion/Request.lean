import Aipass.Base.Result
import Aipass.Conversion.Protocol

/-!
# Requests across protocols

What the request converters share: the checks a request passes first, the fields that are copied
as they are, and the reasoning settings. Provider-owned reasoning cannot cross protocols.
-/
namespace Aipass.Conversion

/-- The text of a value that is a string and not empty. -/
def nonemptyStr (value : Value) : Option String := value.asStr.filter (· ≠ "")

/-- `response_item_ciphertexts`. -/
def responseItemCiphertexts (item : Value) : List String :=
  let parts := match (item.field "type").asStr with
    | some "message" | some "agent_message" => item.get "content"
    | some "function_call_output" | some "custom_tool_call_output" => item.get "output"
    | none => if (item.field "role").asStr.isSome then item.get "content" else none
    | _ => none
  (nonemptyStr (item.field "encrypted_content")).toList ++
    (if item.field "type" = .string "encrypted_content" then (nonemptyStr (item.field "data")).toList
      else []) ++
    ((parts.bind Value.asArray).getD []).flatMap fun part =>
      if part.field "type" = .string "encrypted_content" then
        ["data", "encrypted_content"].filterMap fun key => nonemptyStr (part.field key)
      else []

/-- A block holds reasoning that only its provider can read. -/
def providerOwned (block : Value) : Bool :=
  let kind := (block.field "type").asStr.getD ""
  kind = "redacted_thinking" ∨
    (kind = "thinking" ∧ ((block.get "signature").bind nonemptyStr).isSome) ∨
    responseItemCiphertexts block ≠ []

/-- `validate_reasoning_origin`. -/
def validateReasoningOrigin (protocol : ProxyProtocol) (payload : Value) :
    Except ConversionError Unit :=
  let messages := (((payload.get "messages").or (payload.get "input")).bind Value.asArray).getD []
  if messages.any fun message =>
      (message :: ((message.field "content").asArray.getD [])).any providerOwned then
    .error (invalid protocol
      "provider-signed reasoning requires its original native protocol and account")
  else if protocol = RS ∧ ["previous_response_id", "conversation"].any
      fun key => ((payload.get key).filter Value.present).isSome then
    .error (invalid protocol "cross-protocol requests require full conversation history")
  else .ok ()

/-- `object`: a request is an object. -/
def object (payload : Value) (protocol : ProxyProtocol) : Except ConversionError Unit :=
  if payload.asObject.isSome then .ok ()
  else .error (invalid protocol "request must be a JSON object")

/-- Write a field that is there. -/
def setSome (key : String) (value : Option Value) (out : Value) : Value :=
  match value with
  | some value => out.set key value
  | none => out

/-- `pass`. -/
def pass (src : Value) (keys : List String) (out : Value) : Value :=
  keys.foldl (fun out key => setSome key (src.get key) out) out

/-- `am_thinking`. -/
def amThinking (src : Value) (to_ : ProxyProtocol) (out : Value) : Value :=
  match src.get "thinking" with
  | none => out
  | some thinking =>
    let effort := match (thinking.field "type").asStr with
      | some "disabled" => "none"
      | _ => (((src.get "output_config").bind fun config => config.get "effort").bind
          Value.asStr).getD "high"
    if to_ = CC then out.set "reasoning_effort" effort
    else out.set "reasoning" (.obj [("effort", effort)])

/-- `openai_thinking`. -/
def openaiThinking (src out : Value) : Value :=
  match ((src.get "reasoning_effort").or
      ((src.get "reasoning").bind fun reasoning => reasoning.get "effort")).bind Value.asStr with
  | some "none" => out.set "thinking" (.obj [("type", "disabled")])
  | some effort =>
    (out.set "thinking" (.obj [("type", "adaptive")])).set "output_config"
      (.obj [("effort", effort)])
  | none => out

/-- `json_string`. -/
def jsonString (serde : SerdeJson) (value : Value) : String := serde.print value

/-- `block_type`. -/
def blockType (block : Value) : String := ((block.get "type").bind Value.asStr).getD ""

/-- The role of a message, `user` unless it says otherwise. -/
def messageRole (message : Value) : String := ((message.get "role").bind Value.asStr).getD "user"

/-- The texts of the parts of a kind. -/
def textsOf (kinds : List String) (parts : List Value) : List String :=
  (parts.filter fun part => blockType part ∈ kinds).filterMap fun part =>
    (part.get "text").bind Value.asStr

/-- `join("\n")`. -/
def joinLines (texts : List String) : String := "\n".intercalate texts

end Aipass.Conversion
