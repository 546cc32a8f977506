import Aipass.Conversion.MessagesClient
import Aipass.Base.Result

/-!
# Chat Completions streams to Anthropic are well formed

Between two calls the client knows which block is open and how many there were, and the
observer's calls are the buffered ones. A chunk keeps that, and the end of the stream puts the
buffered calls out one by one.
-/
namespace Aipass.Conversion

/-- What the observer knows of a buffered call. -/
def BufferedTool.seen (tool : BufferedTool) : CallSeen := ⟨tool.custom, tool.arguments⟩

namespace CcToAm

/-- The client knows the converter's state. -/
structure Follows (held : CcToAm) (client : MessagesClient) : Prop where
  started : client.started = held.started
  counted : client.blocks = held.nextBlock
  opened : client.opened = held.opened.map fun _ => { isCall := false }
  /-- The open block is the last one. -/
  last : ∀ block, held.opened = some block → block.index + 1 = held.nextBlock
  running : client.ended = false
  waiting : client.stopping = false

/-- What the blocks leave alone. -/
structure Keeps (before after : CcToAm) : Prop where
  tools : after.tools = before.tools
  finishReason : after.finishReason = before.finishReason
  terminated : after.terminated = before.terminated

/-- The client took the frames of a run that began in a state, and knows the state it is in. -/
def Tracks (serde : SerdeJson) (upstream : Upstream) (start : MessagesClient) (origin : CcToAm)
    (run : Emitting CcToAm) : Prop :=
  ∃ client, start.receiveAll serde upstream run.out = some client ∧ client.inputs = start.inputs ∧
    Follows run.self client ∧ Keeps origin run.self

/-- The same, after the message has started. -/
def Writes (serde : SerdeJson) (upstream : Upstream) (start : MessagesClient) (origin : CcToAm)
    (run : Emitting CcToAm) : Prop :=
  Tracks serde upstream start origin run ∧ run.self.started = true

variable {serde : SerdeJson} {upstream : Upstream} {start client : MessagesClient}
  {origin : CcToAm} {run : Emitting CcToAm}

/-- The client takes one more event. -/
theorem receiveAll_put (run : Emitting CcToAm) (client : MessagesClient) {next : MessagesClient}
    {kind : String} {fields : List (String × Value)}
    (taken : start.receiveAll serde upstream run.out = some client) (running : client.ended = false)
    (judged : client.judge serde upstream (messagesView (.obj (("type", kind) :: fields))) =
      some next) :
    start.receiveAll serde upstream (put run kind fields).out = some next := by
  rw [put, MessagesClient.receiveAll_append taken]
  simp [MessagesClient.receiveAll, MessagesClient.receive, running, string, judged]

/-- The start of a message. -/
theorem Tracks.ensureStarted (tracks : Tracks serde upstream start origin run) :
    Writes serde upstream start origin (ensureStarted run) := by
  by_cases started : run.self.started = true
  · rw [CcToAm.ensureStarted, if_pos started]
    exact ⟨tracks, started⟩
  · obtain ⟨client, taken, inputs, follows, keeps⟩ := tracks
    have fresh : client.started = false :=
      follows.started.trans (Bool.eq_false_iff.mpr started)
    simp only [CcToAm.ensureStarted, if_neg started]
    refine ⟨⟨{ client with started := true }, ?_, inputs, ?_, ?_⟩, rfl⟩
    · refine receiveAll_put { run with self := _ } _ taken follows.running ?_
      rw [messagesView_messageStart, MessagesClient.judge, if_neg (by simp [fresh])]
    · exact ⟨rfl, follows.counted, follows.opened, follows.last, follows.running,
        follows.waiting⟩
    · exact ⟨keeps.tools, keeps.finishReason, keeps.terminated⟩

/-- The end of the open block. -/
theorem Tracks.closeOpen (tracks : Tracks serde upstream start origin run) :
    Tracks serde upstream start origin (closeOpen run) := by
  obtain ⟨client, taken, inputs, follows, keeps⟩ := tracks
  cases held : run.self.opened with
  | none =>
    simp only [CcToAm.closeOpen, held]
    exact ⟨client, taken, inputs, follows, keeps⟩
  | some block =>
    have opened : client.opened = some { isCall := false } := by
      rw [follows.opened, held]
      rfl
    have last : block.index + 1 = client.blocks := by
      rw [follows.counted]
      exact follows.last block held
    simp only [CcToAm.closeOpen, held]
    refine ⟨{ client with opened := none }, ?_, inputs, ?_, ?_⟩
    · refine receiveAll_put { run with self := _ } _ taken follows.running ?_
      simp [MessagesClient.judge, opened, last]
    · exact ⟨follows.started, follows.counted, rfl, by simp [put], follows.running,
        follows.waiting⟩
    · exact ⟨keeps.tools, keeps.finishReason, keeps.terminated⟩

/-- No block is open after the end of the open block. -/
@[simp] theorem opened_closeOpen (run : Emitting CcToAm) :
    (closeOpen run).self.opened = none := by
  cases held : run.self.opened <;> simp [closeOpen, held, put]

/-- The end of the open block does not start a message. -/
@[simp] theorem started_closeOpen (run : Emitting CcToAm) :
    (closeOpen run).self.started = run.self.started := by
  cases held : run.self.opened <;> simp [closeOpen, held, put]

/-- The start of a block of text or thinking. -/
theorem Writes.openBlock (writes : Writes serde upstream start origin run)
    {block : ℕ → AmBlock} (indexed : ∀ index, (block index).index = index) {content : Value}
    (noCall : (content.field "type").asStr ≠ some "tool_use") :
    Writes serde upstream start origin (openBlock run block content) := by
  obtain ⟨tracks, started⟩ := writes
  obtain ⟨client, taken, inputs, follows, keeps⟩ := tracks.closeOpen
  have clientStarted : client.started = true := by
    rw [follows.started, started_closeOpen, started]
  have noBlock : client.opened = none := by
    rw [follows.opened, opened_closeOpen]
    rfl
  refine ⟨⟨{ client with blocks := client.blocks + 1, opened := some { isCall := false } },
    ?_, inputs, ?_, ?_⟩, ?_⟩
  · refine receiveAll_put { CcToAm.closeOpen run with self := _ } _ taken
      follows.running ?_
    simp [MessagesClient.judge, clientStarted, noBlock, follows.counted, follows.waiting, noCall]
  · refine ⟨?_, congrArg (· + 1) follows.counted, rfl, ?_, follows.running, follows.waiting⟩
    · simp [CcToAm.openBlock, put, clientStarted, started]
    · rintro opened ⟨⟩
      simp [CcToAm.openBlock, put, indexed]
  · exact ⟨keeps.tools, keeps.finishReason, keeps.terminated⟩
  · simp [CcToAm.openBlock, put, started]

/-- A delta of the open block that is no piece of an input. -/
theorem Writes.putDelta (writes : Writes serde upstream start origin run) {delta : Value}
    (noPiece : delta.get "partial_json" = none) :
    Writes serde upstream start origin (putDelta run delta) := by
  obtain ⟨⟨client, taken, inputs, follows, keeps⟩, started⟩ := writes
  cases held : run.self.opened with
  | none =>
    simp only [CcToAm.putDelta, held]
    exact ⟨⟨client, taken, inputs, follows, keeps⟩, started⟩
  | some block =>
    have opened : client.opened = some { isCall := false } := by
      rw [follows.opened, held]
      rfl
    have last : block.index + 1 = client.blocks := by
      rw [follows.counted]
      exact follows.last block held
    simp only [CcToAm.putDelta, held]
    have same : { client with opened := some { isCall := false, json := "" } } = client := by
      rw [← opened]
    refine ⟨⟨client, receiveAll_put _ _ taken follows.running ?_, inputs, follows, keeps⟩, started⟩
    simp only [messagesView_blockDelta, MessagesClient.judge, opened, noPiece]
    rw [if_pos last]
    exact congrArg some same

/-- The reasoning of a delta. -/
theorem Writes.pushReasoning (writes : Writes serde upstream start origin run)
    (reasoning : String) : Writes serde upstream start origin (pushReasoning run reasoning) := by
  have opened : Writes serde upstream start origin (openThinking run) := by
    simp only [CcToAm.openThinking]
    split
    · exact writes
    · exact writes.openBlock (fun _ => rfl) (by simp [Value.field])
  simp only [CcToAm.pushReasoning]
  split
  · exact writes
  · exact opened.putDelta (by simp)

/-- The text of a delta. -/
theorem Writes.pushText (writes : Writes serde upstream start origin run) (text : String) :
    Writes serde upstream start origin (pushText run text) := by
  have opened : Writes serde upstream start origin (openText run) := by
    simp only [CcToAm.openText]
    split
    · exact writes
    · exact writes.openBlock (fun _ => rfl) (by simp [Value.field])
  simp only [CcToAm.pushText]
  split
  · exact writes
  · exact opened.putDelta (by simp)

/-- The observer's calls are the buffered ones. -/
theorem calls_pushCalls {tools tools' : Table ℕ BufferedTool} {calls : List Value}
    (passes : pushCalls serde tools calls = .ok tools')
    (same : upstream.calls = tools.map fun _ tool => tool.seen) :
    (calls.foldl (Upstream.fragment serde) upstream).calls =
        tools'.map fun _ tool => tool.seen := by
  induction calls generalizing tools upstream with
  | nil =>
    cases passes
    exact same
  | cons call rest ih =>
    simp only [pushCalls] at passes
    split at passes
    · cases passes
    · split at passes
      · cases passes
      · refine ih passes ?_
        refine Table.ext_get fun index => ?_
        simp only [Upstream.fragment, Upstream.extend, same, Table.get_insert, Table.get_map]
        by_cases here : (call.field "index").asU64.getD 0 = index
        · subst here
          cases held : tools[(call.field "index").asU64.getD 0]? <;>
            simp [BufferedTool.seen, BufferedTool.extend]
        · simp [here]

/-- The client knows a converter that has not ended, and the observer its calls. -/
structure Known (held : CcToAm) (seen : Upstream) (client : MessagesClient) : Prop where
  follows : Follows held client
  running : held.terminated = false
  noInputs : client.inputs = []
  calls : seen.calls = held.tools.map fun _ tool => tool.seen
  reported : seen.reported = held.finishReason.isSome

/-- What the client makes of the state between calls. -/
def Settled (held : CcToAm) (seen : Upstream) (client : MessagesClient) : Prop :=
  (held.terminated = true ∧ client.ended = true) ∨ Known held seen client

/-- A new converter, and a client that has seen nothing. -/
theorem settled_new : Settled {} {} {} := Or.inr
  { follows := ⟨rfl, rfl, rfl, by simp, rfl, rfl⟩
    running := rfl
    noInputs := rfl
    calls := Table.ext_get fun index => by simp
    reported := rfl }

variable {held : CcToAm} {seen : Upstream}

/-- A known state, before a call has put anything out. -/
theorem Known.tracks (known : Known held seen client) {self : CcToAm}
    (started : self.started = held.started) (nextBlock : self.nextBlock = held.nextBlock)
    (opened : self.opened = held.opened) :
    Tracks serde upstream client self { self } := by
  have follows := known.follows
  refine ⟨client, rfl, rfl, ⟨follows.started.trans started.symm,
    follows.counted.trans nextBlock.symm, ?_, ?_, follows.running, follows.waiting⟩,
    rfl, rfl, rfl⟩
  · rw [opened]
    exact follows.opened
  · rw [opened, nextBlock]
    exact follows.last

/-- The first choice of a chunk keeps the client informed. -/
theorem pushChoice_known (known : Known held seen client) {self : CcToAm} {choice : Value}
    (passes : pushChoice serde { self } choice = .ok run)
    (tracks : Tracks serde upstream client self { self }) (same : Keeps held self) :
    ∃ client', client.receiveAll serde upstream run.out = some client' ∧
      Known run.self (seen.choice serde choice) client' := by
  simp only [pushChoice, bind_eq_ok] at passes
  obtain ⟨tools, gathered, passes⟩ := passes
  cases passes
  obtain ⟨⟨client', taken, inputs, follows, keeps⟩, -⟩ :=
    (tracks.ensureStarted.pushReasoning (chatReasoning (choice.field "delta"))).pushText
      (contentText (choice.field "delta"))
  rw [keeps.tools] at gathered
  refine ⟨client', taken, ⟨follows.started, follows.counted, follows.opened, follows.last,
    follows.running, follows.waiting⟩, ?_, inputs.trans known.noInputs, ?_, ?_⟩
  · exact keeps.terminated.trans (same.terminated.trans known.running)
  · exact calls_pushCalls gathered (by rw [known.calls, same.tools])
  · rw [keeps.finishReason, same.finishReason]
    simp only [Upstream.choice, known.reported]
    cases (choice.get "finish_reason").bind Value.asStr <;> simp

/-- An upstream error ends the stream. -/
theorem Tracks.fail (tracks : Tracks serde upstream start origin run) (error : Value) :
    ∃ client', start.receiveAll serde upstream (fail run error).out = some client' ∧
      (CcToAm.fail run error).self.terminated = true ∧ client'.ended = true := by
  obtain ⟨client', taken, -, follows, -⟩ := tracks.closeOpen
  refine ⟨{ client' with ended := true }, receiveAll_put _ _ taken follows.running ?_, rfl, rfl⟩
  simp [MessagesClient.judge, follows.waiting]

/-- A chunk that reports no error keeps the client informed. -/
theorem pushChunk_known (known : Known held seen client) {chunk : Value}
    (passes : pushChunk serde held chunk = .ok run) (noError : chunk.get "error" = none) :
    ∃ client', client.receiveAll serde upstream run.out = some client' ∧
      Known run.self (seen.chunk serde chunk) client' := by
  simp only [pushChunk, noError] at passes
  split at passes
  · rename_i noChoice
    cases passes
    have unseen : seen.chunk serde chunk = seen := by
      simp [Upstream.chunk, noError, noChoice]
    have follows := known.follows
    rw [unseen]
    exact ⟨client, rfl, ⟨follows.started, follows.counted, follows.opened, follows.last,
      follows.running, follows.waiting⟩, known.running, known.noInputs, known.calls,
      known.reported⟩
  · rename_i choice first
    have observed : seen.chunk serde chunk = seen.choice serde choice := by
      simp [Upstream.chunk, noError, first]
    rw [observed]
    exact pushChoice_known known passes (known.tracks rfl rfl rfl) ⟨rfl, rfl, rfl⟩

/-- A chunk that reports an error ends the stream. -/
theorem pushChunk_fails (known : Known held seen client) {chunk error : Value}
    (passes : pushChunk serde held chunk = .ok run) (failed : chunk.get "error" = some error) :
    ∃ client', client.receiveAll serde upstream run.out = some client' ∧
      run.self.terminated = true ∧ client'.ended = true := by
  simp only [pushChunk, failed] at passes
  cases passes
  have tracks : Tracks serde upstream client held { self := held } := known.tracks rfl rfl rfl
  exact tracks.fail error

/-- A chunk settles. -/
theorem pushChunk_settles (known : Known held seen client) {chunk : Value}
    (passes : pushChunk serde held chunk = .ok run) :
    ∃ client', client.receiveAll serde upstream run.out = some client' ∧
      Settled run.self (seen.chunk serde chunk) client' := by
  cases failed : chunk.get "error" with
  | some error =>
    obtain ⟨client', taken, ended⟩ := pushChunk_fails known passes failed
    exact ⟨client', taken, Or.inl ended⟩
  | none =>
    obtain ⟨client', taken, after⟩ := pushChunk_known known passes failed
    exact ⟨client', taken, Or.inr after⟩

/-- A gathered call is put out as a block of its own. -/
theorem putTool_taken (taken : start.receiveAll serde upstream run.out = some client)
    (follows : Follows run.self client) (started : run.self.started = true)
    (closed : run.self.opened = none) (id name : String) {input : String}
    (parses : (serde.parse input.toList).isOk = true) :
    ∃ client', start.receiveAll serde upstream (putTool run id name input).out = some client' ∧
      Follows (putTool run id name input).self client' ∧ client'.inputs = client.inputs ++ [input] := by
  let begun : MessagesClient :=
    { client with blocks := client.blocks + 1, opened := some { isCall := true } }
  let filled : MessagesClient :=
    { client with blocks := client.blocks + 1, opened := some { isCall := true, json := input } }
  let ended : MessagesClient :=
    { client with
      blocks := client.blocks + 1, opened := none, inputs := client.inputs ++ [input] }
  have noBlock : client.opened = none := by rw [follows.opened, closed]; rfl
  have clientStarted : client.started = true := follows.started.trans started
  refine ⟨ended, ?_, ⟨follows.started, congrArg (· + 1) follows.counted, ?_, ?_, follows.running,
    follows.waiting⟩, rfl⟩
  · refine receiveAll_put _ filled (receiveAll_put _ begun
      (receiveAll_put { run with self := _ } _ taken follows.running ?_)
      follows.running ?_) follows.running ?_
    · simp [MessagesClient.judge, clientStarted, noBlock, follows.waiting, follows.counted,
        Value.field, begun]
    · simp [MessagesClient.judge, follows.counted, string, begun, filled]
    · simp [MessagesClient.judge, follows.counted, filled, parses, ended]
  · simp [putTool, put, closed, ended]
  · simp [putTool, put, closed]

/-- The gathered calls are put out in order. -/
theorem putTools_taken {tools : List (ℕ × BufferedTool)} {run' : Emitting CcToAm}
    (passes : putTools serde run tools = .ok run')
    (taken : start.receiveAll serde upstream run.out = some client)
    (follows : Follows run.self client) (started : run.self.started = true)
    (closed : run.self.opened = none) :
    ∃ client', start.receiveAll serde upstream run'.out = some client' ∧
      Follows run'.self client' ∧ run'.self.started = true ∧ run'.self.opened = none ∧
      client'.inputs = client.inputs ++ tools.map fun entry => entry.2.input serde := by
  induction tools generalizing run client with
  | nil =>
    cases passes
    exact ⟨client, taken, follows, started, closed, by simp⟩
  | cons entry rest ih =>
    obtain ⟨index, tool⟩ := entry
    simp only [putTools] at passes
    generalize (if tool.id = "" then "toolu_conv_" ++ toString index else tool.id) = id at passes
    split at passes
    · cases passes
    · split at passes
      · cases passes
      · rename_i value parsing
        have parses : (serde.parse (tool.input serde).toList).isOk = true := by
          rw [parsing]
          rfl
        obtain ⟨middle, taken', follows', inputs⟩ :=
          putTool_taken taken follows started closed id tool.name parses
        obtain ⟨client', taken'', follows'', started', closed', inputs'⟩ :=
          ih passes taken' follows' (by simpa [putTool, put] using started)
            (by simpa [putTool, put] using closed)
        exact ⟨client', taken'', follows'', started', closed', by simp [inputs', inputs]⟩

/-- The end of the stream puts the calls out and stops the message. -/
theorem finish_settles (settled : Settled held seen client)
    (sameCalls : upstream.calls = seen.calls)
    (reported : seen.reported = true → upstream.reported = true)
    (passes : finish serde held = .ok run) :
    ∃ client', client.receiveAll serde upstream run.out = some client' ∧
      run.self.terminated = true ∧ client'.ended = true := by
  simp only [finish] at passes
  rcases settled with ⟨terminated, ended⟩ | known
  · rw [if_pos terminated] at passes
    cases passes
    exact ⟨client, rfl, terminated, ended⟩
  · rw [if_neg (by simp [known.running])] at passes
    split at passes
    · cases passes
    · rename_i reason finished
      simp only [bind_eq_ok] at passes
      obtain ⟨stopped, putting, passes⟩ := passes
      cases passes
      have known' : Tracks serde upstream client held { self := held } :=
        known.tracks rfl rfl rfl
      obtain ⟨tracks, started⟩ := known'.ensureStarted
      obtain ⟨middle, taken, noInputs, follows, keeps⟩ := tracks.closeOpen
      obtain ⟨last, taken', follows', started', closed', inputs⟩ :=
        putTools_taken putting taken
          ⟨follows.started, follows.counted, follows.opened, follows.last, follows.running,
            follows.waiting⟩ (by simpa using started) (by simp)
      have gathered : last.inputs = upstream.inputs serde := by
        rw [inputs, noInputs, known.noInputs, keeps.tools, Upstream.inputs, sameCalls, known.calls,
          Std.ExtTreeMap.toList_map, List.map_map, List.nil_append]
        rfl
      have noBlock : last.opened = none := by rw [follows'.opened, closed']; rfl
      refine ⟨{ last with stopping := true, ended := true }, ?_, rfl, rfl⟩
      refine receiveAll_put _ { last with stopping := true }
        (receiveAll_put _ _ taken' follows'.running ?_) follows'.running ?_
      · simp [MessagesClient.judge, follows'.started, started', noBlock, follows'.waiting]
      · have upstreamReported : upstream.reported = true := by
          refine reported ?_
          rw [known.reported, finished]
          rfl
        simp [MessagesClient.judge, upstreamReported, gathered]

/-- Every call settles. -/
theorem push_settles (settled : Settled held seen client) (raw : List Char)
    (passes : push serde held raw = .ok run) :
    ∃ client', client.receiveAll serde (seen.observeChat serde raw) run.out = some client' ∧
      Settled run.self (seen.observeChat serde raw) client' := by
  simp only [push, bind_eq_ok] at passes
  obtain ⟨parsed, parsing, passes⟩ := passes
  split at passes
  · rename_i marker
    have unseen : seen.observeChat serde raw = seen := by
      simp only [Upstream.observeChat, parsing]
      rw [if_pos marker]
    obtain ⟨client', taken, ended⟩ := finish_settles settled rfl (fun reported => reported) passes
    rw [unseen]
    exact ⟨client', taken, Or.inl ended⟩
  · rename_i noMarker
    rcases settled with ended | known
    · rw [if_pos ended.1] at passes
      cases passes
      exact ⟨client, rfl, Or.inl ended⟩
    · rw [if_neg (by simp [known.running])] at passes
      simp only [bind_eq_ok] at passes
      obtain ⟨payload, reading, passes⟩ := passes
      split at passes
      · cases passes
        have unseen : seen.observeChat serde raw = seen := by
          simp only [Upstream.observeChat, parsing, reading]
          rw [if_neg noMarker]
        rw [unseen]
        exact ⟨client, rfl, Or.inr known⟩
      · rename_i chunk
        have observed : seen.observeChat serde raw = seen.chunk serde chunk := by
          simp only [Upstream.observeChat, parsing, reading]
          rw [if_neg noMarker]
        rw [observed]
        exact pushChunk_settles known passes

end CcToAm
end Aipass.Conversion
