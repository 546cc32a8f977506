import Aipass.Search.Restoring

/-!
# Hidden rounds of a searched conversation

A run whose requests all extend no longer turn than the newest one they extend keeps every hidden
round of the turns that are built on: what is remembered of a turn is that turn in full, and a
request in the loop sends what it started with and its own rounds. The counter of bytes is the size
of the memory in every run.
-/
namespace Aipass.Search

open Conversion (ProxyProtocol AM CC RS)

variable {outside : Outside}

/-- The turn of a request whose messages are as they should be is that request's conversation. -/
theorem Flight.turn_full (flight : Flight) (target : Uuid) (request : List Value)
    (response : Value) : (flight.turn target request response).full =
      start flight.base request ++ flight.hidden ++
        appendReply flight.pending.route.inboundProtocol [] response := by
  unfold Flight.turn start
  cases flight.base <;> rfl

/-- The turn of a request tells what the request was. -/
theorem Flight.turn_searched (flight : Flight) (target : Uuid) (request : List Value)
    (response : Value) : (flight.turn target request response).searched =
      ⟨flight.pending.route.id, context flight.pending.original, target, request, flight.hidden,
        appendReply flight.pending.route.inboundProtocol [] response⟩ := by
  unfold Flight.turn
  cases flight.base <;> rfl

/-- The search tool is no message. -/
theorem messages_dropTool (protocol : ProxyProtocol) {payload : Value}
    (isObject : payload.IsObject) (name : String) :
    messages protocol (dropTool payload name) = messages protocol payload := by
  unfold dropTool
  split
  · exact messages_set isObject (ne_field (by decide) (by decide)) _
  · rfl

/-- Another round has the messages of the last one and some more, and goes to no other target. -/
theorem Pending.answer_again {pending next : Pending} {identity : Option Uuid} {response : Value}
    {searched : ℕ → Except String Value}
    (answered : pending.answer outside identity response searched = .again next) :
    next.original = pending.original ∧ next.route.id = pending.route.id ∧
      next.route.inboundProtocol = pending.route.inboundProtocol ∧
      (∀ held ∈ next.route.targets, held ∈ pending.route.targets) ∧
      ∃ before added, messages pending.route.inboundProtocol pending.payload = some before ∧
        messages pending.route.inboundProtocol next.payload = some (before ++ added) := by
  unfold Pending.answer at answered
  simp only at answered
  split at answered
  · cases answered
  · cases answered
  · rename_i called _ isCalled
    split at answered
    · cases answered
    · split at answered
      · cases answered
      · split at answered
        · cases answered
        · rename_i payload appended
          cases answered
          obtain ⟨before, added, isBefore, -, isObject, after⟩ := append_eq_ok appended
          have kept : messages pending.route.inboundProtocol
              (if pending.plan.maxUses ≤ pending.uses + called.length then
                dropTool payload pending.plan.name else payload) = some (before ++ added) := by
            split
            · rw [messages_dropTool _ isObject, after]
            · exact after
          cases identity with
          | none => exact ⟨rfl, rfl, rfl, fun held kept => kept, before, added, isBefore, kept⟩
          | some target =>
            exact ⟨rfl, rfl, rfl, fun held kept => List.mem_of_mem_filter kept, before, added,
              isBefore, kept⟩

/-- Another round keeps a request faithful. -/
theorem Flight.Faithful.next_round {flight : Flight} (faithful : flight.Faithful) {next : Pending}
    {identity : Option Uuid} {response : Value} {searched : ℕ → Except String Value}
    (answered : flight.pending.answer outside identity response searched = .again next) :
    (flight.next next).Faithful := by
  obtain ⟨original, route, protocol, targets, before, added, isBefore, after⟩ :=
    Pending.answer_again answered
  intro incoming areMessages
  simp only [Flight.next, original, protocol] at areMessages ⊢
  obtain ⟨sent, pinned⟩ := faithful incoming areMessages
  rw [isBefore, Option.some.injEq] at sent
  refine ⟨?_, fun base isBase => ?_⟩
  · rw [after, isBefore, sent, Option.getD_some, Option.getD_some, List.drop_left,
      List.append_assoc]
  · obtain ⟨sameRoute, sameContext, extended, sameTarget⟩ := pinned base isBase
    exact ⟨sameRoute.trans route.symm, sameContext, extended,
      fun held kept => sameTarget held (targets held kept)⟩

namespace World.Sound

variable {world : World}

/-- Entries may go. -/
theorem shrink (sound : world.Sound outside) {entries : List Entry}
    (sub : entries.Sublist world.history.entries) {flights : List Flight} (clock : Proxy.Instant)
    (faithful : ∀ flight ∈ flights, flight.Faithful) :
    World.Sound outside ⟨⟨entries, sizes entries⟩, clock, flights, world.kept⟩ where
  bounded := sound.bounded.recount sub
  known entry held := sound.known entry (sub.subset held)
  told := sound.told
  faithful := faithful

/-- An arriving request is faithful. -/
theorem arriving (sound : world.Sound outside) {available : Bool} {request : Request}
    (clear : Clear outside world (.arrive available request)) {pending : Pending}
    (begun : (forward outside available world.clock world.history request).2 = .search pending) :
    Flight.Faithful ⟨pending, world.base outside request, []⟩ := by
  by_cases handled : ∃ body, request.body = some body ∧ request.image = false ∧
      native outside request.route request.route.inboundProtocol = false
  · obtain ⟨body, isBody, noImage, notNative⟩ := handled
    rw [forward_eq world available isBody noImage notNative] at begun
    cases found : world.found outside request with
    | none =>
      have noBase : world.base outside request = none := by rw [World.base, found]; rfl
      simp only [found] at begun
      have proceeds := proceed_spec available request body body
        request.route false
      rw [begun] at proceeds
      obtain ⟨isRoute, isOriginal, same⟩ := proceeds
      intro incoming areMessages
      simp only [isRoute, isOriginal, noBase] at areMessages ⊢
      exact ⟨by rw [same, areMessages, start, List.append_nil], fun base impossible => by
        cases impossible⟩
    | some hit =>
      obtain ⟨entry, hidden⟩ := hit
      simp only [found] at begun
      split at begun
      · cases begun
      · have proceeds := proceed_spec available request body
          (body.set (field request.route.inboundProtocol) (.array hidden))
          (request.route.pin entry.target) true
        rw [begun] at proceeds
        obtain ⟨isRoute, isOriginal, same⟩ := proceeds
        intro incoming areMessages
        simp only [isRoute, isOriginal] at areMessages ⊢
        obtain ⟨nothing, -⟩ | ⟨held, turn, isFound, isTurn, -, extended, -⟩ :=
          found_spec sound clear isBody areMessages
        · rw [found] at nothing
          cases nothing
        · rw [found, Option.some.injEq, Prod.mk.injEq] at isFound
          obtain ⟨rfl, rfl⟩ := isFound
          have isBase : world.base outside request = some turn := by
            rw [World.base, found, Option.bind_some, isTurn]
          refine ⟨?_, fun base same_base => ?_⟩
          · rw [isBase, List.append_nil]
            exact same.trans (messages_written (isObject_of_messages areMessages) _)
          · rw [isBase, Option.some.injEq] at same_base
            subst same_base
            refine ⟨extended.route, extended.context, extended.isPrefix, ?_⟩
            rw [← (sound.told entry turn (turnOf_mem isTurn)).target]
            exact pin_targets request.route entry.target
  · rw [forward_pass world available handled] at begun
    cases begun

/-- An arriving request keeps what holds. -/
theorem arrive (sound : world.Sound outside) {available : Bool} {request : Request}
    (clear : Clear outside world (.arrive available request)) {next : World}
    (stepped : world.step outside (.arrive available request) = some next) :
    next.Sound outside := by
  simp only [World.step, Option.some.injEq] at stepped
  have flown : ∀ flight ∈ next.flights, flight.Faithful := by
    rw [← stepped]
    intro flight held
    dsimp only at held
    split at held
    · rename_i pending begun
      obtain before | new := List.mem_append.mp held
      · exact sound.faithful flight before
      · rw [List.mem_singleton.mp new]
        exact arriving sound clear begun
    · exact sound.faithful flight held
  subst stepped
  by_cases handled : ∃ body, request.body = some body ∧ request.image = false ∧
      native outside request.route request.route.inboundProtocol = false
  · obtain ⟨body, isBody, noImage, notNative⟩ := handled
    have expired : (forward outside available world.clock world.history request).1 =
        world.history.expire world.clock := by
      rw [forward_eq world available isBody noImage notNative]
    rw [expired]
    exact sound.shrink List.filter_sublist world.clock flown
  · have same : (forward outside available world.clock world.history request).1 =
        world.history := by rw [forward_pass world available handled]
    rw [same]
    exact ⟨sound.bounded, sound.known, sound.told, flown⟩

/-- The entry made for a faithful request tells its turn. -/
theorem tells {flight : Flight} (faithful : flight.Faithful) {seen sent : List Value}
    (isSeen : messages flight.pending.route.inboundProtocol flight.pending.original = some seen)
    (isSent : messages flight.pending.route.inboundProtocol flight.pending.payload = some sent)
    (now : Proxy.Instant) (target : Uuid) (response : Value) :
    (History.entryOf outside now flight.pending.route.id target
      flight.pending.route.inboundProtocol flight.pending.original seen sent response).Tells outside
        (flight.turn target seen response) := by
  obtain ⟨started, -⟩ := faithful seen isSeen
  have same : sent = start flight.base seen ++ flight.hidden :=
    Option.some.inj (isSent.symm.trans started)
  constructor
  · rw [Flight.turn_searched]
    rfl
  · rw [Flight.turn_searched]
    rfl
  · rw [Flight.turn_searched]
    rfl
  · rw [Turn.public, Flight.turn_searched, History.entryOf, appendReply_eq]
  · rw [Flight.turn_full, History.entryOf, same, appendReply_eq _ (start flight.base seen ++ _)]

/-- Remembering a turn keeps what holds. -/
theorem remember (sound : world.Sound outside) {flight : Flight} (faithful : flight.Faithful)
    (target : Uuid) (response : Value) :
    (world.remember outside flight target response).Sound outside := by
  have cases := History.remember_cases sound.bounded outside world.clock flight.pending.route.id
    target flight.pending.route.inboundProtocol flight.pending.original flight.pending.payload
    response rfl
  have grown : ∀ held ∈ world.kept, held ∈ (world.remember outside flight target response).kept := by
    intro held kept
    unfold World.remember
    simp only
    split
    · exact List.mem_append_left _ kept
    · exact kept
  refine ⟨?_, ?_, ?_, sound.faithful⟩
  · obtain same | ⟨bounded, -⟩ := cases
    · rw [World.remember, same]
      exact sound.bounded
    · exact bounded
  · intro entry held
    obtain same | ⟨-, seen, sent, older, isSeen, isSent, suffix, entries⟩ := cases
    · rw [World.remember, same] at held
      obtain ⟨turn, kept⟩ := sound.known entry held
      exact ⟨turn, grown _ kept⟩
    · rw [World.remember, entries] at held
      obtain before | new := List.mem_append.mp held
      · obtain ⟨turn, kept⟩ := sound.known entry (suffix.subset before)
        exact ⟨turn, grown _ kept⟩
      · rw [List.mem_singleton.mp new]
        refine ⟨flight.turn target seen response, ?_⟩
        simp only [World.remember, isSeen, isSent]
        exact List.mem_append_right _ List.mem_cons_self
  · intro entry turn held
    unfold World.remember at held
    simp only at held
    split at held
    · rename_i seen sent isSeen isSent
      obtain before | new := List.mem_append.mp held
      · exact sound.told entry turn before
      · obtain ⟨rfl, rfl⟩ := Prod.mk.inj (List.mem_singleton.mp new)
        exact tells faithful isSeen isSent world.clock target response
    · exact sound.told entry turn held

/-- Requests may leave the loop. -/
theorem leave (sound : world.Sound outside) {flights : List Flight}
    (fewer : ∀ flight ∈ flights, flight.Faithful) :
    World.Sound outside { world with flights := flights } :=
  ⟨sound.bounded, sound.known, sound.told, fewer⟩

/-- The answer to a round keeps what holds. -/
theorem answer (sound : world.Sound outside) {index : ℕ} {identity : Option Uuid}
    {response : Value} {searched : ℕ → Except String Value} {next : World}
    (stepped : world.step outside (.answer index identity response searched) = some next) :
    next.Sound outside := by
  have left : ∀ flight ∈ world.flights.eraseIdx index, flight.Faithful := fun flight held =>
    sound.faithful flight (List.mem_of_mem_eraseIdx held)
  simp only [World.step, Option.bind_eq_bind, Option.bind_eq_some_iff] at stepped
  obtain ⟨flight, here, stepped⟩ := stepped
  have faithful : flight.Faithful := sound.faithful flight (List.mem_of_getElem? here)
  split at stepped
  · rename_i value remembered answered
    rw [Option.some.injEq] at stepped
    subst stepped
    cases remembered with
    | none => exact sound.leave left
    | some target => exact (sound.leave left).remember faithful target value
  · rename_i pending answered
    rw [Option.some.injEq] at stepped
    subst stepped
    refine sound.leave fun other held => ?_
    obtain before | rfl := List.mem_or_eq_of_mem_set held
    · exact sound.faithful other before
    · exact faithful.next_round answered
  · rw [Option.some.injEq] at stepped
    subst stepped
    exact sound.leave left

/-- What holds is kept by every step that is clear. -/
theorem step (sound : world.Sound outside) {action : Action} (clear : Clear outside world action)
    {next : World} (stepped : world.step outside action = some next) : next.Sound outside := by
  cases action with
  | arrive available request => exact sound.arrive clear stepped
  | answer index identity response searched => exact sound.answer stepped
  | fail index =>
    rw [World.step, Option.some.injEq] at stepped
    subst stepped
    exact sound.leave fun flight held => sound.faithful flight (List.mem_of_mem_eraseIdx held)
  | retain valid =>
    rw [World.step, Option.some.injEq] at stepped
    subst stepped
    exact sound.shrink List.filter_sublist world.clock sound.faithful
  | wait duration =>
    rw [World.step, Option.some.injEq] at stepped
    subst stepped
    exact ⟨sound.bounded, sound.known, sound.told, sound.faithful⟩

/-- What holds in a run whose requests are clear. -/
theorem reached (outside : Outside)
    (reached : (gateway outside).Reachable (Clear outside) world) : world.Sound outside :=
  reached.invariant (World.Sound outside)
    (fun state initial => by
      cases initial
      exact ⟨⟨rfl, Nat.zero_le _, Nat.zero_le _⟩, fun _ none => absurd none List.not_mem_nil,
        fun _ _ none => absurd none List.not_mem_nil, fun _ none => absurd none List.not_mem_nil⟩)
    fun _ _ _ sound clear stepped => sound.step clear stepped

end World.Sound

/-- The entry a request is restored from is one of its route. -/
theorem World.found_route {world : World} {request : Request} {entry : Entry} {hidden : List Value}
    (found : world.found outside request = some (entry, hidden)) :
    entry.route = request.route.id := by
  obtain ⟨body, isBody, search⟩ := Option.bind_eq_some_iff.mp found
  obtain ⟨incoming, areMessages, search⟩ := Option.bind_eq_some_iff.mp search
  have member : ∀ entries : List Entry, History.search outside incoming entries = some (entry, hidden) →
      entry ∈ entries := by
    intro entries search
    induction entries with
    | nil => cases search
    | cons first rest ih =>
      rw [History.search] at search
      split at search
      · cases search
      · split at search
        · obtain ⟨_, _, same⟩ := Option.map_eq_some_iff.mp search
          obtain ⟨rfl, -⟩ := Prod.mk.inj same
          exact List.mem_cons_self
        · exact List.mem_cons_of_mem _ (ih search)
  have held := List.mem_reverse.mp (member _ search)
  exact (of_decide_eq_true (List.mem_filter.mp held).2).1

/-- In a run whose requests are clear, the longest searched turn that a request extends is sent in
full, to its target only; the requests in the loop go on from what they started with; no entry of
another route is used; and the memory is as large as its counter says and not too large. -/
theorem hidden_rounds_kept (outside : Outside) {world : World}
    (reached : (gateway outside).Reachable (Clear outside) world) :
    (∀ available request, Clear outside world (.arrive available request) →
      world.Restores outside available request) ∧
    (∀ flight ∈ world.flights, flight.Faithful) ∧
    (∀ entry turn, (entry, turn) ∈ world.kept → entry.Tells outside turn) ∧
    (∀ request entry hidden, world.found outside request = some (entry, hidden) →
      entry.route = request.route.id) ∧
    world.history.Bounded := by
  have sound := World.Sound.reached outside reached
  exact ⟨fun available request clear => World.restores sound clear, sound.faithful, sound.told,
    fun request entry hidden found => World.found_route found, sound.bounded⟩

/-- A message of the user. -/
def question (text : String) : Value := .obj [("role", "user"), ("content", text)]

/-- The content of a reply. -/
def contentOf (text : String) : Value := .array [.obj [("type", "text"), ("text", text)]]

/-- A reply. -/
def reply (text : String) : Value := .obj [("role", "assistant"), ("content", contentOf text)]

/-- The content of a response that calls for a search. -/
def calling (query : String) : Value := .array [.obj [("type", "tool_use"), ("id", "call"),
  ("name", "aipass_web_search"), ("input", .obj [("query", query)])]]

/-- A search that finds nothing. -/
def nothingFound : Value := .obj [("results", .array [])]

/-- The round of a search that finds nothing. -/
def searching (query : String) : List Value :=
  [.obj [("role", "assistant"), ("content", calling query)],
    .obj [("role", "user"), ("content", .array [.obj [("type", "tool_result"),
      ("tool_use_id", "call"), ("content", SerdeJson.compact nothingFound),
      ("is_error", .bool false)]])]]

/-- A conversation of one turn, and one of two turns of which the first is the same. -/
def shortTurn : List Value := [question "Who?", reply "Ann."]
/-- The longer conversation. -/
def longTurn : List Value := shortTurn ++ [question "When?", reply "Now."]
/-- The shorter conversation in full. -/
def shortFull : List Value := [question "Who?"] ++ searching "who" ++ [reply "Ann."]
/-- The longer conversation in full, when its last turn searches only. -/
def longFull : List Value := shortTurn ++ [question "When?"] ++ searching "when" ++ [reply "Now."]

/-- The values of the two conversations. -/
def twoTurns : Outside where
  serde := .ofValues [nothingFound, .array shortTurn, .array longTurn, .array shortFull,
    .array longFull]
  urlHost _ := some "llm.example"

/-- A request for Anthropic messages with a native search, to one target. -/
def withSearch (list : List Value) : Request where
  route := ⟨7, AM, AM, [⟨1, true, some AM, "https://llm.example", .standard⟩]⟩
  image := false
  body := some (.obj [("model", "m"), ("messages", .array list), ("tools",
    .array [.obj [("type", "web_search_20250305"), ("name", "web_search")]])])

/-- The two rounds of the first request in the loop. -/
def rounds (query replied : String) : List Action :=
  [.answer 0 (some 1) (.obj [("content", calling query)]) fun _ => .ok nothingFound,
    .answer 0 (some 1) (.obj [("content", contentOf replied)]) fun _ => .ok nothingFound]

/-- The longer conversation asks for its second turn and the shorter one for its only one; then both
search and get their replies. -/
def twoConversations : List Action :=
  [.arrive true (withSearch (shortTurn ++ [question "When?"])),
    .arrive true (withSearch [question "Who?"])] ++ rounds "when" "Now." ++ rounds "who" "Ann."

/-- A step; requests arrive as long as the memory is empty. -/
def World.early (outside : Outside) (world : World) : Action → Option World
  | .arrive available request =>
    if world.history.entries = [] then world.step outside (.arrive available request) else none
  | action => world.step outside action

/-- Requests that find the memory empty are clear. -/
theorem World.clear_of_early {world next : World} {action : Action}
    (stepped : world.early outside action = some next) :
    Clear outside world action ∧ (gateway outside).step world action next := by
  cases action with
  | arrive available request =>
    rw [World.early] at stepped
    split at stepped
    · rename_i empty
      refine ⟨fun body incoming _ _ older entry newer split => ?_, stepped⟩
      have inContext : entry ∈ History.ofContext world.live request.route.id (context body) := by
        rw [split]
        exact List.mem_append_right _ List.mem_cons_self
      have held := live_subset (List.mem_of_mem_filter inContext)
      rw [empty] at held
      cases held
    · cases stepped
  | _ => exact ⟨trivial, stepped⟩

/-- The texts of the two conversations are read back. -/
theorem twoTurns_reads (list : List Value)
    (listed : list ∈ [shortTurn, longTurn, shortFull, longFull]) :
    readMessages twoTurns (printMessages twoTurns list) = some list := by
  have reads : twoTurns.serde.parse (twoTurns.serde.print (.array list)).toList =
      .ok (.array list) := by
    refine SerdeJson.ofValues_reads (by decide +kernel) ?_
    simp only [List.mem_cons, List.not_mem_nil, or_false] at listed ⊢
    obtain rfl | rfl | rfl | rfl := listed <;> simp
  rw [printMessages, readMessages, reads]

/-- A request that goes on from the longer conversation. -/
def longRequest : Request := withSearch (longTurn ++ [question "Where?"])

/-- It is handled by the gateway. -/
theorem longRequest_handled : longRequest.Handled twoTurns (.obj [("model", "m"),
    ("messages", .array (longTurn ++ [question "Where?"])), ("tools",
      .array [.obj [("type", "web_search_20250305"), ("name", "web_search")]])])
    (longTurn ++ [question "Where?"]) :=
  ⟨rfl, rfl, rfl, by decide +kernel⟩

/-- The turns a world keeps, in public and in full, are the given ones; their entries are alive. -/
def World.Keeps (world : World) (turns : List (List Value × List Value)) : Prop :=
  world.live = world.kept.map Prod.fst ∧
  world.kept.map (fun kept => (kept.2.public, kept.2.full)) = turns ∧
  ∀ kept ∈ world.kept, kept.2.searched.route = 7 ∧ kept.2.searched.target = 1 ∧
    kept.2.searched.context = .array ["m", .null, .null, .null, .null, .null]

instance (world : World) (turns : List (List Value × List Value)) :
    Decidable (world.Keeps turns) := by
  unfold World.Keeps
  infer_instance

/-- The longer conversation alone is restored in full. -/
theorem hidden_rounds_kept_long : ∃ world, (gateway twoTurns).Reachable (Clear twoTurns) world ∧
    (forward twoTurns true world.clock world.history longRequest).2.Sends AM
      (longFull ++ [question "Where?"]) 1 := by
  have went : ((System.after (World.early twoTurns) {} (twoConversations.take 4)).any fun world =>
      world.Keeps [(longTurn, longFull)]) = true := by
    decide +kernel
  simp only [Option.any_eq_true, decide_eq_true_eq] at went
  obtain ⟨world, went, alive, turns, facts⟩ := went
  have reached : (gateway twoTurns).Reachable (Clear twoTurns) world :=
    .after (fun _ _ _ => World.clear_of_early) (.start rfl) went
  have results := hidden_rounds_kept twoTurns reached
  obtain ⟨⟨entry, turn⟩, rest, isKept, isTurn, isRest⟩ := List.map_eq_cons_iff.mp turns
  rw [List.map_eq_nil_iff] at isRest
  rw [isRest] at isKept
  simp only [Prod.mk.injEq] at isTurn
  obtain ⟨isPublic, isFull⟩ := isTurn
  have only : ∀ {other longer}, (other, longer) ∈ world.kept → other = entry ∧ longer = turn := by
    intro other longer kept
    rw [isKept, List.mem_singleton] at kept
    exact Prod.mk.inj kept
  have kept : (entry, turn) ∈ world.kept := by rw [isKept]; exact List.mem_cons_self
  have tells := results.2.2.1 entry turn kept
  have clear : Clear twoTurns world (.arrive true longRequest) := by
    intro body incoming isBody areMessages older other newer split none_newer longer kept'
    obtain ⟨rfl, rfl⟩ := only kept'
    refine ⟨?_, fun _ => ⟨?_, fun other _ longer' kept_ _ => ?_⟩⟩
    · rw [tells.publicText, isPublic]
      exact twoTurns_reads _ (by simp)
    · rw [tells.privateText, isFull]
      exact twoTurns_reads _ (by simp)
    · rw [(only kept_).2]
  obtain ⟨route, target, isContext⟩ := facts (entry, turn) kept
  obtain ⟨held, same, kept', -, -, -, -, sends⟩ := results.1 true longRequest clear _ _
    longRequest_handled entry turn kept
    (by rw [alive]; exact List.mem_map_of_mem kept)
    ⟨route, isContext, by rw [isPublic]; exact List.prefix_append _ _⟩
    fun other longer kept_ _ _ => by rw [(only kept_).2]
  rw [(only kept').2, start, isFull, isPublic, List.drop_left, target] at sends
  exact ⟨world, reached, sends⟩

/-- A newer turn hides the hidden rounds of a longer one that extends it: two conversations at once
have the same first question and answer, and the one that ends there searches last. -/
theorem newer_turn_hides_rounds : ¬∀ outside world, (gateway outside).Reached world →
    ∀ available request, world.Restores outside available request := by
  intro always
  have went : ((System.after (World.early twoTurns) {} twoConversations).any fun world =>
      world.Keeps [(longTurn, longFull), (shortTurn, shortFull)]) = true := by
    decide +kernel
  simp only [Option.any_eq_true, decide_eq_true_eq] at went
  obtain ⟨world, went, alive, turns, facts⟩ := went
  have reached : (gateway twoTurns).Reachable (Clear twoTurns) world :=
    .after (fun _ _ _ => World.clear_of_early) (.start rfl) went
  have sound := World.Sound.reached twoTurns reached
  obtain ⟨⟨first, long⟩, rest, isKept, isLong, isRest⟩ := List.map_eq_cons_iff.mp turns
  obtain ⟨⟨second, short⟩, rest, rfl, isShort, isNil⟩ := List.map_eq_cons_iff.mp isRest
  rw [List.map_eq_nil_iff] at isNil
  subst isNil
  simp only [Prod.mk.injEq] at isLong isShort
  have keptLong : (first, long) ∈ world.kept := by rw [isKept]; simp
  have keptShort : (second, short) ∈ world.kept := by rw [isKept]; simp
  have inContext : History.ofContext world.live longRequest.route.id
      (.array ["m", .null, .null, .null, .null, .null]) = [first, second] := by
    have all : ∀ kept ∈ world.kept, kept.1.route = longRequest.route.id ∧
        kept.1.context = .array ["m", .null, .null, .null, .null, .null] := by
      rintro ⟨entry, turn⟩ kept
      have tells := sound.told entry turn kept
      exact ⟨tells.route.trans (facts _ kept).1, tells.context.trans (facts _ kept).2.2⟩
    rw [alive, isKept]
    refine List.filter_eq_self.mpr fun entry held => decide_eq_true ?_
    simp only [List.map_cons, List.map_nil, List.mem_cons, List.not_mem_nil, or_false] at held
    obtain rfl | rfl := held
    · exact all _ keptLong
    · exact all _ keptShort
  have told := sound.told second short keptShort
  -- The newest entry is that of the shorter conversation, which the request extends.
  have found : world.found twoTurns longRequest =
      some (second, shortFull ++ (longTurn ++ [question "Where?"]).drop shortTurn.length) := by
    have extended : shortTurn.isPrefixOf (longTurn ++ [question "Where?"]) = true := by
      decide +kernel
    have reading := twoTurns_reads shortTurn (by simp)
    have reading' := twoTurns_reads shortFull (by simp)
    rw [← isShort.1, ← told.publicText] at reading
    rw [← isShort.2, ← told.privateText] at reading'
    rw [World.found_eq longRequest_handled.isBody longRequest_handled.areMessages]
    change History.search twoTurns _ (History.ofContext world.live longRequest.route.id
      (.array ["m", .null, .null, .null, .null, .null])).reverse = _
    rw [inContext, List.reverse_cons, List.reverse_singleton, List.singleton_append,
      History.search, reading]
    simp only [isShort.1, isShort.2, extended, if_true, reading', Option.map_some]
  obtain ⟨held, same, kept, -, -, equal, isBase, -⟩ := always twoTurns world
    (reached.mono fun _ _ _ => trivial) true longRequest _ _ longRequest_handled first long keptLong
    (by rw [alive]; exact List.mem_map_of_mem keptLong)
    ⟨(facts _ keptLong).1, (facts _ keptLong).2.2, by
      rw [isLong.1]
      exact List.prefix_append _ _⟩
    fun other longer kept _ _ => by
      rw [isKept] at kept
      simp only [List.mem_cons, Prod.mk.injEq, List.not_mem_nil, or_false] at kept
      obtain ⟨-, rfl⟩ | ⟨-, rfl⟩ := kept
      · exact le_rfl
      · rw [isLong.1, isShort.1]
        decide
  rw [World.base, found, Option.bind_some] at isBase
  have texts := (told.publicText.symm.trans (sound.told second same
    (World.turnOf_mem isBase)).publicText)
  rw [isShort.1, equal, isLong.1] at texts
  exact absurd texts (by decide +kernel)

end Aipass.Search
