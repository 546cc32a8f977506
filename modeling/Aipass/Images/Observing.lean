import Aipass.Proxy.Observe

/-!
# Observing an image response

An answer to an image request is read for an image, for an error and for an error that explicitly
denies the capability. Of a stream the complete events are read; an event completes the request,
fails it or has no say. How the fields of an answer are read is a parameter.
-/
namespace Aipass.Images

open Proxy

/-- `Operation`. -/
inductive Operation
  | generate
  | edit
deriving DecidableEq

/-- `Operation::completed`. -/
def Operation.completed : Operation → String
  | generate => "image_generation.completed"
  | edit => "image_edit.completed"

/-- `Support`. -/
inductive Support
  | supported
  | unsupported
deriving DecidableEq

/-- `ImageOutput`: whether the fields hold a text that is not empty. -/
structure ImageOutput where
  b64Json : Bool
  url : Bool

/-- `ImageResponse`. -/
structure ImageResponse where
  kind : Option String
  b64Json : Bool
  data : Option (List ImageOutput)
  /-- There is an error that is not null. -/
  error : Bool

/-- `ImageResponse::has_image`. -/
def ImageResponse.hasImage (response : ImageResponse) : Bool :=
  response.b64Json || response.data.any fun items => items.any fun item => item.b64Json || item.url

/-- `ImageResponse::failed`. -/
def ImageResponse.failed (response : ImageResponse) : Bool :=
  response.error || response.kind.any fun kind => kind = "error" || endsWith kind ".failed"

/-- The statuses of an answer that may deny the capability. -/
def deniableStatuses : List ℕ := [400, 404, 405, 422, 501]

/-- The codes of an error that denies the capability. -/
def denyingCodes : List String :=
  ["unsupported_endpoint", "endpoint_not_supported", "unsupported_model", "model_not_supported",
    "image_generation_not_supported", "image_edit_not_supported"]

/-- The words by which a message names images. -/
def imageWords : List String :=
  ["image generation", "image editing", "images/generations", "images/edits", "image_generation",
    "image_edit"]

/-- The words by which a message denies a capability. -/
def denyingWords : List String :=
  ["not supported", "does not support", "unsupported endpoint", "not implemented"]

/-- The words by which a message denies something else. -/
def otherWords : List String :=
  ["size", "quality", "format", "background", "parameter", "stream", "permission", "quota",
    "balance", "policy"]

/-- `str::contains`. -/
def contains (text : List Char) (word : String) : Bool := decide (word.toList <:+: text)

section Reading

-- `serde_json::from_slice`, if it succeeds, of a value and of an image response
variable (fromSlice : Bytes → Option Value) (readResponse : Bytes → Option ImageResponse)

/-- `unsupported`. -/
def isUnsupported (status : ℕ) (bytes : Bytes) : Bool :=
  if status ∉ deniableStatuses then false
  else
    match fromSlice bytes with
    | none => false
    | some value =>
      match value.get "error" with
      | some (.object fields) =>
        let error := Value.object fields
        let message := ((((error.get "message").bind Value.asStr).getD "").toList).map Char.toLower
        denyingCodes.contains (((error.get "code").bind Value.asStr).getD "") ||
          (imageWords.any (contains message) && denyingWords.any (contains message) &&
            !otherWords.any (contains message))
      | _ => false

/-- `Observer`. -/
structure Observer where
  buffer : Bytes := []
  operation : Operation
  streaming : Bool
  completed : Bool := false
  failed : Bool := false
  unsupported : Bool := false

/-- An event read for what it says of the request. -/
def Observer.readEvent (observer : Observer) (event : Bytes) : Observer :=
  match (sseEventData event).bind fun data => (readResponse data).map fun value => (data, value) with
  | none => observer
  | some (data, value) =>
    { observer with
      failed := observer.failed || value.failed
      unsupported := observer.unsupported || (value.failed && isUnsupported fromSlice 400 data)
      completed := observer.completed ||
        (value.kind = some observer.operation.completed && value.hasImage && !value.failed) }

/-- `Observer::push`. -/
def Observer.push (observer : Observer) (bytes : Bytes) : Except String Observer :=
  if observer.buffer.length + bytes.length > maxBufferedResponseBytes then
    .error "image response event exceeds proxy buffer limit"
  else if observer.streaming then
    let split := splitEvents (observer.buffer ++ bytes)
    .ok { split.1.foldl (Observer.readEvent fromSlice readResponse) observer with buffer := split.2 }
  else .ok { observer with buffer := observer.buffer ++ bytes }

/-- `Observer::finish`. -/
def Observer.finish (observer : Observer) : Observer :=
  if observer.streaming then observer
  else
    match readResponse observer.buffer with
    | none => observer
    | some value =>
      { observer with
        failed := observer.failed || value.failed
        unsupported := observer.unsupported ||
          (value.failed && isUnsupported fromSlice 400 observer.buffer)
        completed := value.hasImage && !value.failed }

/-- What an event says of the request. -/
inductive Word
  /-- Nothing. -/
  | silent
  /-- The result is there. -/
  | result
  /-- The request has failed, and whether the capability was denied. -/
  | refusal (denied : Bool)
deriving DecidableEq

/-- The request has failed. -/
@[simp] def Word.isRefusal : Word → Bool
  | .refusal _ => true
  | _ => false

/-- What an event says of a request. -/
def wordOf (operation : Operation) (event : Bytes) : Word :=
  match (sseEventData event).bind fun data => (readResponse data).map fun value => (data, value) with
  | none => .silent
  | some (data, value) =>
    if value.failed then .refusal (isUnsupported fromSlice 400 data)
    else if value.kind = some operation.completed ∧ value.hasImage then .result
    else .silent

/-- Reading an event notes what it says. -/
theorem readEvent_eq (observer : Observer) (event : Bytes) :
    observer.readEvent fromSlice readResponse event =
      { observer with
        failed := observer.failed ||
          (wordOf fromSlice readResponse observer.operation event).isRefusal
        unsupported := observer.unsupported ||
          (wordOf fromSlice readResponse observer.operation event = .refusal true)
        completed := observer.completed ||
          (wordOf fromSlice readResponse observer.operation event = .result) } := by
  rw [Observer.readEvent, wordOf]
  cases read : (sseEventData event).bind fun data =>
      (readResponse data).map fun value => (data, value) with
  | none => simp
  | some pair =>
    obtain ⟨data, value⟩ := pair
    cases failed : value.failed with
    | true => simp [failed]
    | false =>
      by_cases complete : value.kind = some observer.operation.completed ∧ value.hasImage = true
      · simp [failed, complete]
      · have partly : (decide (value.kind = some observer.operation.completed) && value.hasImage) =
            false := by
          simpa using complete
        simp [failed, complete, partly]

/-- Reading events notes what each of them says. -/
theorem foldl_readEvent (observer : Observer) (events : List Bytes) :
    events.foldl (Observer.readEvent fromSlice readResponse) observer =
      { observer with
        failed := observer.failed || events.any fun event =>
          (wordOf fromSlice readResponse observer.operation event).isRefusal
        unsupported := observer.unsupported || events.any fun event =>
          (wordOf fromSlice readResponse observer.operation event = .refusal true)
        completed := observer.completed || events.any fun event =>
          (wordOf fromSlice readResponse observer.operation event = .result) } := by
  induction events generalizing observer with
  | nil => simp
  | cons event events ih =>
    rw [List.foldl_cons, ih, readEvent_eq]
    simp only [List.any_cons, Bool.or_assoc]

end Reading

end Aipass.Images
