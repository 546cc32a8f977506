import Aipass.Base.SharedFile
import Aipass.Values

/-!
# The body of a client request

The body is kept while a request is tried on one target after another. What exceeds a threshold is
written to an unnamed file, and every later reader clones its handle. The file is written before
anyone reads it, so the shared cursor is at its end when the first reader starts.
-/
namespace Aipass.Replay

open SharedFile

/-- `MAX_REQUEST_BODY_BYTES`. -/
def maxRequestBodyBytes : ℕ := 512 * 1024 * 1024

/-- `REQUEST_BODY_MEMORY_THRESHOLD`. -/
def requestBodyMemoryThreshold : ℕ := 8 * 1024 * 1024

/-- `RequestBodyReadError`. -/
inductive RequestBodyReadError
  | tooLarge
  | io (error : String)
  | transport (error : String)
deriving DecidableEq, Repr

/-- `ReplayableRequestBody`. -/
inductive ReplayableRequestBody
  | memory (bytes : Bytes)
  | file (handle : File UInt8) (len : ℕ)

/-- `ReplayableRequestBody::bytes`. -/
def ReplayableRequestBody.bytes : ReplayableRequestBody → Option Bytes
  | memory bytes => some bytes
  | file _ _ => none

/-- `ReplayableRequestBody::len`. -/
def ReplayableRequestBody.len : ReplayableRequestBody → ℕ
  | memory bytes => bytes.length
  | file _ len => len

/-- One item of the stream of the body, with the error that file work done for it meets. -/
structure Arrival where
  chunk : Except String Bytes
  disk : Option String

/-- What was read so far. -/
structure Received where
  memory : Bytes
  file : Option Bytes
  total : ℕ

/-- The bytes that were read so far. -/
def Received.content (received : Received) : Bytes := received.file.getD received.memory

/-- File work, which may meet an error. -/
def written (disk : Option String) : Except RequestBodyReadError Unit :=
  match disk with
  | some error => .error (.io error)
  | none => .ok ()

/-- One round of the loop in `read_replayable_request_chunks`. -/
def Received.push (maxBytes memoryThreshold : ℕ) (received : Received) (arrival : Arrival) :
    Except RequestBodyReadError Received :=
  match arrival.chunk with
  | .error error => .error (.transport error)
  | .ok chunk =>
    let total := received.total + chunk.length
    if 2 ^ 64 ≤ total ∨ maxBytes < total then .error .tooLarge
    else match received.file with
      | some file => do
        written arrival.disk
        pure { received with file := some (file ++ chunk), total }
      | none =>
        if total ≤ memoryThreshold then .ok { received with memory := received.memory ++ chunk, total }
        else do
          written arrival.disk
          pure { memory := [], file := some (received.memory ++ chunk), total }

/-- The body that was read, once the file is flushed. -/
def Received.body (received : Received) (flush : Option String) :
    Except RequestBodyReadError ReplayableRequestBody :=
  match received.file with
  | some content => do
    written flush
    pure (.file ⟨content, content.length, []⟩ received.total)
  | none => .ok (.memory received.memory)

/-- `read_replayable_request_chunks`. -/
def readReplayableRequestChunks (maxBytes memoryThreshold : ℕ) (arrivals : List Arrival)
    (flush : Option String) : Except RequestBodyReadError ReplayableRequestBody := do
  let received ← arrivals.foldlM (Received.push maxBytes memoryThreshold) ⟨[], none, 0⟩
  received.body flush

/-- `read_replayable_request_body`. -/
def readReplayableRequestBody (arrivals : List Arrival) (flush : Option String) :
    Except RequestBodyReadError ReplayableRequestBody :=
  readReplayableRequestChunks maxRequestBodyBytes requestBodyMemoryThreshold arrivals flush

/-- The bytes a client sent. -/
def sentBytes : List Arrival → Bytes
  | [] => []
  | arrival :: rest =>
    (match arrival.chunk with
      | .ok chunk => chunk
      | .error _ => []) ++ sentBytes rest

/-- A body that was not read yet holds these bytes. -/
def ReplayableRequestBody.Holds (original : Bytes) : ReplayableRequestBody → Prop
  | memory bytes => bytes = original
  | file handle len => handle = ⟨original, original.length, []⟩ ∧ len = original.length

/-- A body the proxy read from a client or made itself, not yet read by anyone. -/
inductive ReplayableRequestBody.Fresh (original : Bytes) : ReplayableRequestBody → Prop
  /-- A client sent it. -/
  | received {arrivals flush body} (sent : sentBytes arrivals = original)
      (read : readReplayableRequestBody arrivals flush = .ok body) : Fresh original body
  /-- The proxy made it. -/
  | made : Fresh original (.memory original)

section Reading

variable {maxBytes memoryThreshold : ℕ} {received next : Received} {arrival : Arrival}

/-- File work that succeeds meets no error. -/
theorem written_bind {α : Type} {disk : Option String} {value done : α}
    (went : (written disk >>= fun _ => pure value) = Except.ok done) : value = done := by
  cases disk with
  | none => exact Except.ok.inj went
  | some error => cases went

/-- A round of the loop adds its chunk, in memory or in the file. -/
theorem push_content (went : received.push maxBytes memoryThreshold arrival = .ok next)
    (counted : received.total = received.content.length) :
    next.content = received.content ++ sentBytes [arrival] ∧
      next.total = next.content.length := by
  cases chunk : arrival.chunk with
  | error error => simp [Received.push, chunk] at went
  | ok bytes =>
    have sent : sentBytes [arrival] = bytes := by simp [sentBytes, chunk]
    rw [sent]
    simp only [Received.push, chunk] at went
    split at went
    · cases went
    · split at went
      · next file held =>
        rw [← written_bind went]
        simp [Received.content, held] at counted ⊢
        omega
      · next none_ =>
        have inMemory : received.content = received.memory := by simp [Received.content, none_]
        rw [inMemory] at counted ⊢
        split at went
        · cases went
          simp [Received.content, none_, counted]
        · rw [← written_bind went]
          simp [Received.content, counted]

/-- The loop keeps what arrives, in order. -/
theorem foldlM_content {arrivals : List Arrival}
    (went : arrivals.foldlM (Received.push maxBytes memoryThreshold) received = .ok next)
    (counted : received.total = received.content.length) :
    next.content = received.content ++ sentBytes arrivals ∧
      next.total = next.content.length := by
  induction arrivals generalizing received with
  | nil =>
    cases went
    exact ⟨(List.append_nil _).symm, counted⟩
  | cons arrival rest ih =>
    rw [List.foldlM_cons] at went
    cases pushed : received.push maxBytes memoryThreshold arrival with
    | error error =>
      rw [pushed] at went
      cases went
    | ok middle =>
      rw [pushed] at went
      have first := push_content pushed counted
      have later := ih went first.2
      refine ⟨?_, later.2⟩
      rw [later.1, first.1, List.append_assoc]
      simp [sentBytes]

/-- What was read from a client is what it sent. -/
theorem holds_of_read {arrivals : List Arrival} {flush : Option String}
    {body : ReplayableRequestBody}
    (read : readReplayableRequestChunks maxBytes memoryThreshold arrivals flush = .ok body) :
    body.Holds (sentBytes arrivals) := by
  rw [readReplayableRequestChunks] at read
  cases folded : arrivals.foldlM (Received.push maxBytes memoryThreshold) ⟨[], none, 0⟩ with
  | error error =>
    rw [folded] at read
    cases read
  | ok received =>
    rw [folded] at read
    replace read : received.body flush = .ok body := read
    obtain ⟨content, counted⟩ := foldlM_content folded rfl
    rw [Received.body] at read
    split at read
    · next file held =>
      have same : file = sentBytes arrivals := by
        simpa [Received.content, held] using content
      rw [← written_bind read, ← same]
      refine ⟨rfl, ?_⟩
      simpa [Received.content, held] using counted
    · next none_ =>
      cases read
      have same : received.memory = sentBytes arrivals := by
        simpa [Received.content, none_] using content
      exact same

/-- A body nobody read yet holds its bytes. -/
theorem ReplayableRequestBody.Fresh.holds {original : Bytes} {body : ReplayableRequestBody}
    (fresh : body.Fresh original) : body.Holds original := by
  cases fresh with
  | received sent read =>
    rw [← sent]
    exact holds_of_read read
  | made => rfl

/-- A body that exceeds the threshold in its first chunk is written to a file. -/
theorem read_spilled {original : Bytes} (large : requestBodyMemoryThreshold < original.length)
    (fits : original.length ≤ maxRequestBodyBytes) :
    readReplayableRequestBody [⟨.ok original, none⟩] none =
      .ok (.file ⟨original, original.length, []⟩ original.length) := by
  have short : original.length < 2 ^ 64 := Nat.lt_of_le_of_lt fits (by decide)
  have pushed : Received.push maxRequestBodyBytes requestBodyMemoryThreshold ⟨[], none, 0⟩
      ⟨.ok original, none⟩ = .ok ⟨[], some original, original.length⟩ := by
    simp only [Received.push, Nat.zero_add]
    rw [if_neg (by omega), if_neg (by omega)]
    rfl
  rw [readReplayableRequestBody, readReplayableRequestChunks, List.foldlM_cons, pushed]
  rfl

end Reading
end Aipass.Replay
