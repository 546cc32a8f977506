import Aipass.Claude.Conversation

/-!
# What comes of a request

Every run, and every saved session, is one whose process has seen the conversation, as long as each
request that goes on with a run extends its conversation and each process ends its blocks and its
messages once. What comes of a request follows: it goes on with an idle run of its target, credential
and context that had the conversation before its last message, or it starts a process that is told of
the whole conversation, or it is refused.
-/
namespace Aipass.Claude

open Proxy (Instant)

variable {δ : Type} {serde : SerdeJson} {sha : Sha δ}

/-- An event ends no block of a call twice, and after the end of a message there is none but the
start of the next. -/
structure Orderly (run : Run δ) (event : Value) : Prop where
  block : event.field "type" = "content_block_stop" →
    ∀ block ∈ run.collector.content[(event.field "index").asU64.getD 0]?,
      block.field "type" = "tool_use" → (block.field "id").asStr.getD "" ∉ run.recorded
  message : run.collector.complete = true → event.field "type" = "message_start"

/-- A request extends the conversation of the run that it goes on with, or the one of the session
that it restores, and the events of a process are orderly. -/
def Clear [DecidableEq δ] (serde : SerdeJson) (sha : Sha δ) (world : World δ) : Action δ → Prop
  | .openReport request surroundings =>
    ∀ prepared ∈ (prepare serde sha request.target request.payload).toOption,
      (∀ entry ∈ world.selected sha request.target prepared surroundings.first,
        Extends sha entry.2 prepared.messages) ∧
      (world.selected sha request.target prepared surroundings.first = none →
        (world.restores sha request.target prepared surroundings).isSome →
        (lastMessage prepared.messages).field "role" = "user")
  | .line key value id _ _ =>
    ∀ entry ∈ world.runs, entry.1 = key →
      ∀ adapted ∈ (entry.2.events.adapt (value.field "event")).bind Except.toOption,
        ∀ event ∈ adapted.2, Orderly entry.2 (publicEvent id event)
  | _ => True

instance (run : Run δ) (event : Value) : Decidable (Orderly run event) :=
  decidable_of_iff (_ ∧ _)
    ⟨fun both => ⟨both.1, both.2⟩, fun orderly => ⟨orderly.block, orderly.message⟩⟩

instance [DecidableEq δ] (run : Run δ) (messages : List Value) :
    Decidable (Extends sha run messages) :=
  decidable_of_iff (_ ∧ _)
    ⟨fun both => ⟨both.1, both.2⟩, fun extends_ => ⟨extends_.isUser, extends_.results⟩⟩

instance [DecidableEq δ] (world : World δ) (action : Action δ) :
    Decidable (Clear serde sha world action) := by
  cases action <;> dsimp only [Clear] <;> infer_instance

/-- An orderly event completes a call that was not recorded. -/
theorem Orderly.fresh {run : Run δ} {event : Value} {collector : Collector}
    (orderly : Orderly run event)
    (went : (run.collectorFor event).event_ serde event = some (.ok collector)) {call : ToolCall}
    (completes : completedCall collector event = some call) : call.id ∉ run.recorded := by
  unfold completedCall at completes
  split at completes
  · rename_i isStop
    rw [Run.collectorFor, if_neg (by rw [isStop]; decide), Collector.event_, isStop] at went
    split at completes
    · rename_i block isBlock
      obtain ⟨before, isBefore, same⟩ := Collector.block_blockStop (Option.some.inj went) isBlock
      split at completes
      · rename_i isCall
        cases completes
        rw [same "type" (by decide) (by decide)] at isCall
        rw [same "id" (by decide) (by decide)]
        exact orderly.block isStop before isBefore isCall
      · cases completes
    · cases completes
  · cases completes

/-- An orderly event that leaves a reply complete is the end of the message. -/
theorem Orderly.stops {run : Run δ} {event : Value} {collector : Collector}
    (orderly : Orderly run event)
    (went : (run.collectorFor event).event_ serde event = some (.ok collector))
    (complete : collector.complete = true) : event.field "type" = "message_stop" := by
  obtain before | isStop := Collector.complete_event_ went complete
  · unfold Run.collectorFor at before
    split at before
    · cases before
    · rename_i notStart
      exact absurd (orderly.message before) notStart
  · exact isStop

/-! ## Steps -/

/-- What holds of the bridge: its processes, and those of the sessions it has saved, have seen their
conversations. -/
structure World.Kept (serde : SerdeJson) (sha : Sha δ) (world : World δ) : Prop where
  runs : ∀ entry ∈ world.runs, entry.2.Kept serde sha
  saved : ∀ saved ∈ world.saved, saved.Kept serde sha

namespace World
namespace Kept

variable {world : World δ}

/-- Fewer runs. -/
theorem fewer (kept : world.Kept serde sha) {runs : List (String × Run δ)}
    (inside : ∀ entry ∈ runs, entry ∈ world.runs) : ({ world with runs } : World δ).Kept serde sha where
  runs entry listed := kept.runs entry (inside entry listed)
  saved := kept.saved

/-- A run is removed. -/
theorem remove (kept : world.Kept serde sha) (key : String) : (world.remove key).Kept serde sha :=
  kept.fewer fun _ listed => (List.mem_filter.mp listed).1

/-- A run changes. -/
theorem change (kept : world.Kept serde sha) (key : String) {run : Run δ}
    (after : run.Kept serde sha) : (world.change key run).Kept serde sha where
  runs entry listed := by
    obtain ⟨before, held, rfl⟩ := List.mem_map.mp listed
    split
    · exact after
    · exact kept.runs before held
  saved := kept.saved

/-- A session is saved. -/
theorem save (kept : world.Kept serde sha) {run : Run δ} (before : run.Kept serde sha) :
    (world.save run).Kept serde sha := by
  unfold World.save
  split
  · refine ⟨kept.runs, fun saved listed => ?_⟩
    obtain rfl | earlier := List.mem_cons.mp listed
    · exact ⟨⟨run.historyMessages, before.conveys, before.history⟩, before.once⟩
    · exact kept.saved saved earlier
  · exact kept

/-- A process sends an event. -/
theorem streamEvent (kept : world.Kept serde sha) {key : String} {run : Run δ}
    (before : run.Kept serde sha) {event : Value} {id : String} {now : Instant}
    (orderly : ∀ adapted ∈ (run.events.adapt event).bind Except.toOption,
      ∀ event ∈ adapted.2, Orderly run (publicEvent id event)) {next : World δ}
    (went : world.streamEvent serde sha key run event id now = some next) :
    next.Kept serde sha := by
  obtain ⟨adapted, isAdapted, went⟩ := Option.bind_eq_some_iff.mp went
  split at went
  · cases went
    exact kept.remove key
  · cases went
    exact kept.change key ⟨before.conveys, before.history, before.once, before.handed, before.known,
      before.distinct, before.pending⟩
  · rename_i events event'
    obtain ⟨collected, isCollected, rfl⟩ := Option.map_eq_some_iff.mp went
    have drawn : ({ world with drawn := id :: world.drawn } : World δ).Kept serde sha :=
      ⟨kept.runs, kept.saved⟩
    cases collected with
    | error error => exact drawn.remove key
    | ok collector =>
      have isOrderly := orderly (events, some event')
        (by rw [isAdapted]; exact Option.mem_some_self _) event' (Option.mem_some_self _)
      have same : ({ run with events } : Run δ).Kept serde sha :=
        ⟨before.conveys, before.history, before.once, before.handed, before.known, before.distinct,
          before.pending⟩
      exact drawn.change key (same.collect (fun call => isOrderly.fresh isCollected)
        (isOrderly.stops isCollected))

/-- A process writes a line. -/
theorem line (kept : world.Kept serde sha) {key : String} {run : Run δ}
    (before : run.Kept serde sha) {value : Value} {id : String} {archived : Bool} {now : Instant}
    (orderly : ∀ adapted ∈ (run.events.adapt (value.field "event")).bind Except.toOption,
      ∀ event ∈ adapted.2, Orderly run (publicEvent id event)) {next : World δ}
    (went : world.line serde sha key run value id archived now = some next) :
    next.Kept serde sha := by
  unfold World.line at went
  simp only at went
  split at went
  · cases went
    exact kept
  · split at went
    · cases went
      exact kept
    · split at went
      · cases went
        exact kept.remove key
      · split at went
        · cases went
          split
          · exact kept.save before
          · exact kept
        · split at went
          · cases went
            exact kept
          · exact kept.streamEvent before orderly went

/-- A process calls a tool, or asks for its result. -/
theorem mcp (kept : world.Kept serde sha) (capability : String) (request : McpRequest)
    (now : Instant) : (world.mcp capability request now).1.Kept serde sha := by
  unfold World.mcp
  split
  · exact kept
  · rename_i key run isRun
    split
    · exact kept
    · split
      · exact kept
      · simp only
        split
        · exact kept
        · exact kept.change key ((kept.runs (key, run) (List.mem_of_find?_eq_some isRun)).claim _ _)
      · split
        · exact kept
        · exact kept

end Kept
end World

/-! ## Requests -/

/-- The runs that are left are some of those before. -/
theorem mem_of_mem_evict {rounds : ℕ} {runs : List (String × Run δ)} {entry : String × Run δ}
    (left : entry ∈ (evict rounds runs).1) : entry ∈ runs := by
  induction rounds generalizing runs with
  | zero => exact left
  | succ rounds ih =>
    unfold evict at left
    split at left
    · exact left
    · split at left
      · exact left
      · exact (List.mem_filter.mp (ih left)).1

variable [DecidableEq δ] {world : World δ} {request : Request} {prepared : Prepared δ}
  {surroundings : Surroundings δ} {key : String} {run : Run δ}

/-- The run that is selected is one that fits. -/
theorem World.fits_of_selected {target : Target} {first : String}
    (selected : world.selected sha target prepared first = some (key, run)) :
    (key, run) ∈ world.runs ∧ run.fits sha target prepared = true := by
  unfold World.selected at selected
  obtain chosen | ⟨-, chosen⟩ := Option.or_eq_some_iff.mp selected
  · have fits := List.find?_some chosen
    exact ⟨List.mem_of_find?_eq_some chosen, (of_decide_eq_true fits).2⟩
  · have fits := List.find?_some chosen
    exact ⟨List.mem_of_find?_eq_some chosen, fits⟩

/-- A run that fits is an idle one of the target, with its credential and its context. -/
theorem Run.of_fits {target : Target} (fits : run.fits sha target prepared = true) :
    run.owner = target.id ∧ run.fingerprint = prepared.fingerprint ∧
      run.context = prepared.context ∧ run.streaming = false := by
  obtain ⟨owner, fingerprint, context, idle, -⟩ := of_decide_eq_true fits
  exact ⟨owner, fingerprint, context, idle⟩

/-- A request that extends the conversation of a run that fits comes after its history. -/
theorem Run.history_of_fits {target : Target} (fits : run.fits sha target prepared = true)
    (extends_ : Extends sha run prepared.messages) :
    run.history = historyHash sha prepared.messages.dropLast := by
  by_cases results : resultsOf prepared.messages = []
  · obtain ⟨-, -, -, -, found⟩ := of_decide_eq_true fits
    rw [if_neg (not_not_intro results)] at found
    exact found.2
  · exact (extends_.results results).1

omit [DecidableEq δ] in
/-- A run whose process has made no calls yet. -/
theorem Run.Kept.of_started (none_ : run.calls = [])
    (history : run.history = historyHash sha run.historyMessages)
    (conveys : Conveys serde run.seen run.historyMessages) (once : (resultIds run.seen).Nodup)
    (handed : run.recorded = resultIds run.seen) : run.Kept serde sha := by
  refine ⟨conveys, history, once, fun id inside => handed ▸ inside, fun call inside => ?_, ?_,
    fun id waits => ?_⟩
  · rw [none_] at inside
    cases inside
  · rw [none_]
    exact List.nodup_nil
  · rw [none_] at waits
    cases waits

omit [DecidableEq δ] in
/-- A run that goes on has the conversation of the request, and its process has seen it. -/
theorem World.continued_spec (world : World δ) (surroundings : Surroundings δ) (key : String)
    (injective : Function.Injective sha.hash) (kept : run.Kept serde sha)
    (some_ : prepared.messages ≠ [])
    (history : run.history = historyHash sha prepared.messages.dropLast)
    (extends_ : Extends sha run prepared.messages) :
    (∃ error, world.continued sha prepared surroundings key run = (world, .refused error)) ∨
      ∃ after : Run δ, after.Kept serde sha ∧ after.historyMessages = prepared.messages ∧
        world.continued sha prepared surroundings key run =
          (world.change key after, .continued key) := by
  unfold World.continued
  simp only
  split
  · rename_i error failed
    exact Or.inl ⟨error, rfl⟩
  · rename_i validated valid
    split
    · rename_i results
      exact Or.inr ⟨_, kept.goOn_results injective some_ extends_ results valid, rfl, rfl⟩
    · split
      · exact Or.inr ⟨_, kept.goOn_user injective some_ history extends_.isUser, rfl, rfl⟩
      · exact Or.inl ⟨_, rfl⟩

/-- What the process of a new run has seen is the conversation. -/
theorem World.Kept.conveys_restored (injective : Function.Injective sha.hash)
    (kept : world.Kept serde sha) (some_ : prepared.messages ≠ []) {target : Target}
    (isUser : (world.restores sha target prepared surroundings).isSome →
      (lastMessage prepared.messages).field "role" = "user") :
    Conveys serde
      (((world.restores sha target prepared surroundings).map Saved.seen).getD [] ++
        [.user (promptOf serde (world.restores sha target prepared surroundings).isSome
          prepared.messages)]) prepared.messages := by
  cases isRestored : world.restores sha target prepared surroundings with
  | none => exact .whole some_
  | some saved =>
    rw [isRestored] at isUser
    obtain ⟨-, found⟩ := Option.filter_eq_some_iff.mp isRestored
    obtain ⟨-, listed, -, -, history⟩ := of_decide_eq_true found
    obtain ⟨⟨messages, conveys, digest⟩, -⟩ := kept.saved saved listed
    have told := (conveys.of_historyHash injective (digest.symm.trans history)).user (isUser rfl)
    rw [dropLast_lastMessage some_] at told
    rw [Option.isSome_some, promptOf, if_pos (Or.inl rfl)]
    exact told

/-- The process of a new run has been handed each result once. -/
theorem World.Kept.once_restored (kept : world.Kept serde sha) {target : Target} (content : Value) :
    (resultIds (((world.restores sha target prepared surroundings).map Saved.seen).getD [] ++
      [.user content])).Nodup := by
  have same (seen : List Exchange) : resultIds (seen ++ [.user content]) = resultIds seen :=
    (resultIds_append seen _).trans (List.append_nil _)
  rw [same]
  cases isRestored : world.restores sha target prepared surroundings with
  | none => exact List.nodup_nil
  | some saved =>
    obtain ⟨-, found⟩ := Option.filter_eq_some_iff.mp isRestored
    obtain ⟨-, listed, -⟩ := of_decide_eq_true found
    exact (kept.saved saved listed).2

/-- A run that starts has the conversation of the request, and its process has been told of it. -/
theorem World.started_spec (request : Request) (injective : Function.Injective sha.hash) (kept : world.Kept serde sha)
    (some_ : prepared.messages ≠ [])
    (isUser : (world.restores sha request.target prepared surroundings).isSome →
      (lastMessage prepared.messages).field "role" = "user") :
    ∃ runs : List (String × Run δ), (∀ entry ∈ runs, entry ∈ world.runs) ∧
      ((∃ error, world.started serde sha request prepared surroundings =
          ({ world with runs }, .refused error)) ∨
        ∃ run : Run δ, run.Kept serde sha ∧ run.historyMessages = prepared.messages ∧
          world.started serde sha request prepared surroundings =
            ({ world with runs := runs ++ [(surroundings.key, run)] },
              .started surroundings.key)) := by
  unfold World.started
  split
  · exact ⟨world.runs, fun _ listed => listed, Or.inl ⟨_, rfl⟩⟩
  · split
    · exact ⟨world.runs, fun _ listed => listed, Or.inl ⟨_, rfl⟩⟩
    · simp only
      refine ⟨(evict world.runs.length world.runs).1, fun _ left => mem_of_mem_evict left, ?_⟩
      split
      · exact Or.inl ⟨_, rfl⟩
      · split
        · exact Or.inl ⟨_, rfl⟩
        · refine Or.inr ⟨_, ?_, rfl, rfl⟩
          refine Run.Kept.of_started rfl rfl ?_ ?_ ?_
          · exact kept.conveys_restored injective some_ isUser
          · exact kept.once_restored _
          · rw [resultIds_append]
            exact (List.append_nil _).symm

/-- The process of the run under a key has seen a conversation, and was handed each result once. -/
def World.Told (serde : SerdeJson) (world : World δ) (key : String) (messages : List Value) : Prop :=
  (∃ run, (key, run) ∈ world.runs) ∧ ∀ run, (key, run) ∈ world.runs →
    run.historyMessages = messages ∧ Conveys serde run.seen messages ∧ (resultIds run.seen).Nodup

/-- What comes of a request: a run that was idle and had the conversation before its last message
goes on, a run starts, or there is none. -/
def Answers (serde : SerdeJson) (sha : Sha δ) (world : World δ) (request : Request) (next : World δ) :
    Outcome → Prop
  | .refused _ => ∀ entry ∈ next.runs, entry ∈ world.runs
  | .continued key => ∃ prepared run,
      prepare serde sha request.target request.payload = .ok prepared ∧ (key, run) ∈ world.runs ∧
      (run.owner = request.target.id ∧ run.fingerprint = sha.fingerprint request.target.apiKey ∧
        run.context = prepared.context ∧ run.streaming = false) ∧
      run.historyMessages.map portable = prepared.messages.dropLast.map portable ∧
      next.Told serde key prepared.messages
  | .started key => ∃ prepared,
      prepare serde sha request.target request.payload = .ok prepared ∧
      next.Told serde key prepared.messages

/-- A request that is clear keeps the processes told, and is answered. -/
theorem World.openReport_spec (injective : Function.Injective sha.hash)
    (kept : world.Kept serde sha) (fresh : surroundings.key ∉ world.runs.map Prod.fst)
    (clear : Clear serde sha world (.openReport request surroundings)) :
    (world.openReport serde sha request surroundings).1.Kept serde sha ∧
      Answers serde sha world request (world.openReport serde sha request surroundings).1
        (world.openReport serde sha request surroundings).2 := by
  unfold World.openReport
  split
  · exact ⟨kept, fun _ listed => listed⟩
  · rename_i prepared isPrepared
    obtain ⟨some_, fingerprint⟩ := messages_of_prepare isPrepared
    obtain ⟨goesOn, startsUser⟩ := clear prepared (by rw [isPrepared]; exact Option.mem_some_self _)
    split
    · exact ⟨kept, fun _ listed => listed⟩
    · split
      · rename_i key run selected
        have isClear := goesOn (key, run) selected
        obtain ⟨held, fits⟩ := World.fits_of_selected selected
        obtain ⟨owner, credential, context, idle⟩ := Run.of_fits fits
        have before := kept.runs (key, run) held
        have history := Run.history_of_fits fits isClear
        obtain ⟨error, isRefused⟩ | ⟨after, isKept, messages, isContinued⟩ :=
          World.continued_spec world surroundings key injective before some_ history isClear
        · rw [isRefused]
          exact ⟨kept, fun _ listed => listed⟩
        · rw [isContinued]
          refine ⟨kept.change key isKept, prepared, run, isPrepared, held,
            ⟨owner, credential.trans fingerprint, context, idle⟩,
            portable_of_historyHash injective (before.history.symm.trans history), ?_, ?_⟩
          · exact ⟨after, List.mem_map.mpr ⟨(key, run), held, if_pos rfl⟩⟩
          · intro other listed
            obtain ⟨entry, -, same⟩ := List.mem_map.mp listed
            split at same
            · cases same
              exact ⟨messages, messages ▸ isKept.conveys, isKept.once⟩
            · rename_i differs
              exact absurd (congrArg Prod.fst same) differs
      · rename_i selected
        obtain ⟨runs, fewer, ⟨error, isRefused⟩ | ⟨run, isKept, messages, isStarted⟩⟩ :=
          World.started_spec request injective kept some_ (startsUser selected)
        · rw [isRefused]
          exact ⟨kept.fewer fewer, fewer⟩
        · rw [isStarted]
          refine ⟨⟨fun entry listed => ?_, kept.saved⟩, prepared, isPrepared, ?_, ?_⟩
          · obtain earlier | new := List.mem_append.mp listed
            · exact kept.runs entry (fewer entry earlier)
            · exact List.mem_singleton.mp new ▸ isKept
          · exact ⟨run, List.mem_append_right _ (List.mem_singleton_self _)⟩
          · intro other listed
            obtain earlier | new := List.mem_append.mp listed
            · exact absurd (List.mem_map_of_mem (fewer _ earlier)) fresh
            · cases List.mem_singleton.mp new
              exact ⟨messages, messages ▸ isKept.conveys, isKept.once⟩

/-! ## Runs of the bridge -/

/-- A step that is clear keeps the processes told. -/
theorem World.Kept.step (injective : Function.Injective sha.hash) {action : Action δ}
    {next : World δ} (kept : world.Kept serde sha) (clear : Clear serde sha world action)
    (stepped : world.step serde sha action = some next) : next.Kept serde sha := by
  cases action with
  | openReport request surroundings =>
    obtain ⟨fresh, same⟩ := Option.ite_none_left_eq_some.mp stepped
    cases same
    exact (World.openReport_spec injective kept fresh clear).1
  | line key value id archived now =>
    obtain ⟨-, went⟩ := Option.ite_none_left_eq_some.mp stepped
    obtain ⟨⟨found, run⟩, isRun, went⟩ := Option.bind_eq_some_iff.mp went
    have held := List.mem_of_find?_eq_some isRun
    have isFound := List.find?_some isRun
    obtain rfl : found = key := of_decide_eq_true isFound
    exact kept.line (kept.runs _ held) (clear _ held rfl) went
  | close key =>
    cases stepped
    exact kept.remove key
  | mcp capability request now =>
    cases stepped
    exact kept.mcp capability request now
  | expire now =>
    cases stepped
    exact kept.fewer fun _ listed => (List.mem_filter.mp listed).1
  | retainTargets targets =>
    cases stepped
    exact kept.fewer fun _ listed => (List.mem_filter.mp listed).1
  | revoke =>
    cases stepped
    exact kept.fewer fun _ none_ => absurd none_ List.not_mem_nil

/-- In a run whose steps are clear, the processes have seen their conversations. -/
theorem World.kept_of_reachable (injective : Function.Injective sha.hash)
    (reached : (bridge serde sha).Reachable (Clear serde sha) world) : world.Kept serde sha := by
  refine reached.invariant _ (fun state isInit => ?_) fun _ _ _ kept clear stepped =>
    kept.step injective clear stepped
  cases isInit
  exact ⟨fun _ none_ => absurd none_ List.not_mem_nil, fun _ none_ => absurd none_ List.not_mem_nil⟩

/-- Digests that are the values themselves. -/
def exactly : Sha Value := ⟨id, .string⟩

/-- A message. -/
def turn (role : String) (content : Value) : Value := .obj [("role", role), ("content", content)]

/-- A request with messages. -/
def asks (messages : List Value) : Request :=
  ⟨⟨default, default, "key", none, true⟩,
    .obj [("model", "opus"), ("messages", .array messages)], none⟩

/-- The surroundings of a request, which would start a run under a key. -/
def around (key : String) : Surroundings Value := ⟨0, key, key, .ok true, none, true, .ok ()⟩

/-- The process sends an event. -/
def sends (id : String) (event : Value) : Action Value :=
  .line "1" (.obj [("type", "stream_event"), ("event", event)]) id true 0

/-- A user greets, and the process replies with a block. -/
def greeted (block : Value) (reason : String) : List (Action Value) :=
  [.openReport (asks [turn "user" "Hi"]) (around "1"),
    sends "a" (.obj [("type", "message_start"), ("message", .obj [("id", "m")])]),
    sends "b" (.obj [("type", "content_block_start"), ("index", .nat 0), ("content_block", block)]),
    sends "c" (.obj [("type", "content_block_stop"), ("index", .nat 0)]),
    sends "d" (.obj [("type", "message_delta"), ("delta", .obj [("stop_reason", reason)])]),
    sends "e" (.obj [("type", "message_stop")])]

/-- A block of text. -/
def helloBlock : Value := .obj [("type", "text"), ("text", "Hello")]

/-- The user goes on after the reply. -/
def onward : Request :=
  asks [turn "user" "Hi", turn "assistant" (.array [helloBlock]), turn "user" "Bye"]

/-- A step that is clear. -/
def World.clearStep (world : World Value) (action : Action Value) : Option (World Value) :=
  if Clear (.ofValues []) exactly world action then world.step (.ofValues []) exactly action else none

/-- The process calls a tool. -/
def callBlock : Value :=
  .obj [("type", "tool_use"), ("name", "mcp__aipass__read"), ("input", .obj [])]

/-- The user returns the result of the call, with another greeting before it. -/
def edited : List Value :=
  [turn "user" "Bye", turn "assistant" (.array [callBlock]), turn "user"
    (.array [.obj [("type", "tool_result"), ("tool_use_id", "b"), ("content", "done")]])]

end Aipass.Claude
