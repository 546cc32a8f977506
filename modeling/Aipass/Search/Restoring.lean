import Mathlib.Data.List.Induction
import Aipass.Search.Gateway

/-!
# Restoring a searched conversation

A request that goes on from a turn that searched is to be sent with that turn in full, and to the
target of that turn only. The memory is searched from the newest entry, so this asks of the request
that the newest turn it extends is also the longest.
-/
namespace Aipass.Search

open Conversion (ProxyProtocol AM CC RS)

variable (outside : Outside)

/-- The entries that have not expired. -/
def World.live (world : World) : List Entry := (world.history.expire world.clock).entries

/-- A request of the gateway, with its body and its messages: for no image, on a route that does not
search by itself. -/
structure Request.Handled (request : Request) (body : Value) (incoming : List Value) : Prop where
  isBody : request.body = some body
  areMessages : messages request.route.inboundProtocol body = some incoming
  noImage : request.image = false
  notNative : native outside request.route request.route.inboundProtocol = false

/-- A request extends a turn of its route and context. -/
structure Turn.Extended (turn : Turn) (request : Request) (body : Value) (incoming : List Value) :
    Prop where
  route : turn.searched.route = request.route.id
  context : turn.searched.context = context body
  isPrefix : turn.public <+: incoming

/-- A list of messages is sent, to targets of one identity only. An error sends nothing. -/
def Outcome.Sends (protocol : ProxyProtocol) (list : List Value) (target : Uuid) : Outcome → Prop
  | .pass route body => (∃ payload, body = some payload ∧ messages protocol payload = some list) ∧
      ∀ held ∈ route.targets, held.id = target
  | .search pending => messages protocol pending.payload = some list ∧
      ∀ held ∈ pending.route.targets, held.id = target
  | .refuse _ _ => True

/-- The longest of the turns that a request extends, among those whose entry is there, is sent in
full, followed by the messages it lacks, and only to the target that served it. Where turns of the
same messages were repeated, this is one of them. -/
def World.Restores (world : World) (available : Bool) (request : Request) : Prop :=
  ∀ body incoming, request.Handled outside body incoming → ∀ entry turn,
    (entry, turn) ∈ world.kept → entry ∈ world.live → turn.Extended request body incoming →
    (∀ other longer, (other, longer) ∈ world.kept → other ∈ world.live →
      longer.Extended request body incoming → longer.public.length ≤ turn.public.length) →
    ∃ held same, (held, same) ∈ world.kept ∧ held ∈ world.live ∧
      same.Extended request body incoming ∧ same.public = turn.public ∧
      world.base outside request = some same ∧
      (forward outside available world.clock world.history request).2.Sends
        request.route.inboundProtocol (start (some same) incoming) same.searched.target

/-- A request in the loop sends what it started with and its hidden rounds; one that goes on from a
turn goes to the target of that turn only. -/
def Flight.Faithful (flight : Flight) : Prop :=
  ∀ incoming, messages flight.pending.route.inboundProtocol flight.pending.original = some incoming →
    messages flight.pending.route.inboundProtocol flight.pending.payload =
      some (start flight.base incoming ++ flight.hidden) ∧
    ∀ base, flight.base = some base → base.searched.route = flight.pending.route.id ∧
      base.searched.context = context flight.pending.original ∧ base.public <+: incoming ∧
      ∀ held ∈ flight.pending.route.targets, held.id = base.searched.target

/-- The condition on a request. Of the entries of its route and context, take those that are no
older than the newest whose turn it extends. They read back as stored, and the turn it extends is
as long as any other that it extends. -/
def Clear (world : World) : Action → Prop
  | .arrive _ request => ∀ body incoming, request.body = some body →
      messages request.route.inboundProtocol body = some incoming → ∀ older entry newer,
      History.ofContext world.live request.route.id (context body) = older ++ entry :: newer →
      (∀ other ∈ newer, ∀ turn, (other, turn) ∈ world.kept → ¬turn.public <+: incoming) →
      ∀ turn, (entry, turn) ∈ world.kept →
        readMessages outside entry.publicText = some turn.public ∧
        (turn.public <+: incoming → readMessages outside entry.privateText = some turn.full ∧
          ∀ other ∈ older, ∀ longer, (other, longer) ∈ world.kept → longer.public <+: incoming →
            longer.public.length ≤ turn.public.length)
  | _ => True

/-- An entry has the messages of a turn, as the client saw them and in full. -/
structure Entry.Tells (entry : Entry) (turn : Turn) : Prop where
  route : entry.route = turn.searched.route
  context : entry.context = turn.searched.context
  target : entry.target = turn.searched.target
  publicText : entry.publicText = printMessages outside turn.public
  privateText : entry.privateText = printMessages outside turn.full

/-- What holds between the steps of a run. -/
structure World.Sound (world : World) : Prop where
  bounded : world.history.Bounded
  known : ∀ entry ∈ world.history.entries, ∃ turn, (entry, turn) ∈ world.kept
  told : ∀ entry turn, (entry, turn) ∈ world.kept → entry.Tells outside turn
  faithful : ∀ flight ∈ world.flights, flight.Faithful

/-- A reply is appended to the messages. -/
theorem appendReply_eq (protocol : ProxyProtocol) (list : List Value) (response : Value) :
    appendReply protocol list response = list ++ appendReply protocol [] response := by
  cases protocol <;> rfl

/-- The last entry of the memory is tried first. -/
theorem search_append (incoming : List Value) (older : List Entry) (entry : Entry) :
    History.search outside incoming (older ++ [entry]).reverse =
      History.search outside incoming (entry :: older.reverse) := by
  rw [List.reverse_append, List.reverse_singleton, List.singleton_append]

variable {outside}

/-- What a search finds, once the newer entries are out of the way. -/
theorem search_spec {kept : List (Entry × Turn)} {incoming : List Value} {entries : List Entry}
    (known : ∀ entry ∈ entries, ∃ turn, (entry, turn) ∈ kept)
    (clear : ∀ older entry newer, entries = older ++ entry :: newer →
      (∀ other ∈ newer, ∀ turn, (other, turn) ∈ kept → ¬turn.public <+: incoming) →
      ∀ turn, (entry, turn) ∈ kept → readMessages outside entry.publicText = some turn.public ∧
        (turn.public <+: incoming → readMessages outside entry.privateText = some turn.full ∧
          ∀ other ∈ older, ∀ longer, (other, longer) ∈ kept → longer.public <+: incoming →
            longer.public.length ≤ turn.public.length))
    (older newer : List Entry) (split : entries = older ++ newer)
    (none_newer : ∀ other ∈ newer, ∀ turn, (other, turn) ∈ kept → ¬turn.public <+: incoming) :
    (History.search outside incoming older.reverse = none ∧
      ∀ other ∈ entries, ∀ turn, (other, turn) ∈ kept → ¬turn.public <+: incoming) ∨
    ∃ entry ∈ entries, ∃ hidden,
      History.search outside incoming older.reverse = some (entry, hidden) ∧
      ∀ turn, (entry, turn) ∈ kept → turn.public <+: incoming ∧
        hidden = start (some turn) incoming ∧
        ∀ other ∈ entries, ∀ longer, (other, longer) ∈ kept → longer.public <+: incoming →
          longer.public.length ≤ turn.public.length := by
  induction older using List.reverseRecOn generalizing newer with
  | nil => exact Or.inl ⟨rfl, by rw [split]; exact none_newer⟩
  | append_singleton older entry ih =>
    have here : entries = older ++ entry :: newer := by rw [split]; simp
    have inside : entry ∈ entries := by rw [here]; simp
    obtain ⟨turn, stored⟩ := known entry inside
    have reading := (clear older entry newer here none_newer turn stored).1
    -- Turns of one entry have the same messages, since they are read from the same text.
    have agree : ∀ other, (entry, other) ∈ kept → other.public = turn.public := fun other held =>
      Option.some.inj ((clear older entry newer here none_newer other held).1.symm.trans reading)
    rw [search_append, History.search, reading]
    by_cases matched : turn.public <+: incoming
    · have found : turn.public.isPrefixOf incoming = true := List.isPrefixOf_iff_prefix.mpr matched
      have hiddenText := ((clear older entry newer here none_newer turn stored).2 matched).1
      refine Or.inr ⟨entry, inside, turn.full ++ incoming.drop turn.public.length, ?_, ?_⟩
      · simp only [found, if_true, hiddenText, Option.map_some]
      · intro other held
        have same := agree other held
        have matched' : other.public <+: incoming := by rw [same]; exact matched
        have facts := (clear older entry newer here none_newer other held).2 matched'
        have full : turn.full = other.full := Option.some.inj (hiddenText.symm.trans facts.1)
        refine ⟨matched', by rw [start, full, same], fun older_ held_ longer kept_ reaches => ?_⟩
        rw [here, List.mem_append, List.mem_cons] at held_
        obtain before | rfl | after := held_
        · exact facts.2 _ before longer kept_ reaches
        · rw [agree longer kept_, same]
        · exact absurd reaches (none_newer _ after longer kept_)
    · have missed : ¬turn.public.isPrefixOf incoming = true := fun found =>
        matched (List.isPrefixOf_iff_prefix.mp found)
      simp only [missed, Bool.false_eq_true, if_false]
      refine ih (entry :: newer) here fun other held longer kept_ => ?_
      obtain rfl | after := List.mem_cons.mp held
      · rw [agree longer kept_]
        exact matched
      · exact none_newer other after longer kept_

namespace World

variable {world : World}

/-- Entries that have not expired are entries. -/
theorem live_subset {entry : Entry} (alive : entry ∈ world.live) : entry ∈ world.history.entries :=
  List.mem_of_mem_filter alive

/-- The turn of an entry is one that was kept with it. -/
theorem turnOf_mem {entry : Entry} {turn : Turn} (found : world.turnOf entry = some turn) :
    (entry, turn) ∈ world.kept := by
  obtain ⟨⟨held, kept⟩, search, rfl⟩ := Option.map_eq_some_iff.mp found
  have same : held = entry := by simpa using List.find?_some search
  rw [← same]
  exact List.mem_of_find?_eq_some search

/-- An entry that was kept has a turn. -/
theorem turnOf_isSome {entry : Entry} {turn : Turn} (kept : (entry, turn) ∈ world.kept) :
    ∃ found, world.turnOf entry = some found := by
  have some_found : (world.kept.find? fun held => held.1 = entry).isSome :=
    List.find?_isSome.mpr ⟨(entry, turn), kept, by simp⟩
  obtain ⟨found, eq⟩ := Option.isSome_iff_exists.mp some_found
  exact ⟨found.2, by rw [turnOf, eq, Option.map_some]⟩

/-- What an arriving request finds in the memory. -/
theorem found_eq {request : Request} {body : Value} {incoming : List Value}
    (isBody : request.body = some body)
    (areMessages : messages request.route.inboundProtocol body = some incoming) :
    world.found outside request = History.search outside incoming
      (History.ofContext world.live request.route.id (context body)).reverse := by
  rw [found, isBody, Option.bind_some, History.lookup, areMessages, Option.bind_some]
  rfl

/-- A clear request finds nothing and extends no turn, or it finds the longest turn it extends. -/
theorem found_spec (sound : world.Sound outside) {available : Bool} {request : Request}
    (clear : Clear outside world (.arrive available request)) {body : Value}
    {incoming : List Value} (isBody : request.body = some body)
    (areMessages : messages request.route.inboundProtocol body = some incoming) :
    (world.found outside request = none ∧ ∀ entry turn, (entry, turn) ∈ world.kept →
      entry ∈ world.live → ¬turn.Extended request body incoming) ∨
    ∃ entry turn, world.found outside request = some (entry, start (some turn) incoming) ∧
      world.turnOf entry = some turn ∧ entry ∈ world.live ∧ turn.Extended request body incoming ∧
      ∀ other longer, (other, longer) ∈ world.kept → other ∈ world.live →
        longer.Extended request body incoming → longer.public.length ≤ turn.public.length := by
  have inContext : ∀ entry turn, (entry, turn) ∈ world.kept → entry ∈ world.live →
      turn.Extended request body incoming →
      entry ∈ History.ofContext world.live request.route.id (context body) := by
    intro entry turn kept alive extended
    have tells := sound.told entry turn kept
    refine List.mem_filter.mpr ⟨alive, decide_eq_true ⟨?_, ?_⟩⟩
    · rw [tells.route, extended.route]
    · rw [tells.context, extended.context]
  have known : ∀ entry ∈ History.ofContext world.live request.route.id (context body),
      ∃ turn, (entry, turn) ∈ world.kept := fun entry held =>
    sound.known entry (live_subset (List.mem_of_mem_filter held))
  rw [found_eq isBody areMessages]
  obtain ⟨nothing, unextended⟩ | ⟨entry, held, hidden, search, facts⟩ :=
    search_spec known (clear body incoming isBody areMessages) _ [] (List.append_nil _).symm
      (fun other impossible => absurd impossible List.not_mem_nil)
  · exact Or.inl ⟨nothing, fun entry turn kept alive extended =>
      unextended entry (inContext entry turn kept alive extended) turn kept extended.isPrefix⟩
  · obtain ⟨turn, kept⟩ := known entry held
    obtain ⟨turn, isTurn⟩ := turnOf_isSome kept
    obtain ⟨alive, same⟩ := List.mem_filter.mp held
    have same := of_decide_eq_true same
    have tells := sound.told entry turn (turnOf_mem isTurn)
    obtain ⟨extended, isStart, longest⟩ := facts turn (turnOf_mem isTurn)
    refine Or.inr ⟨entry, turn, by rw [search, isStart], isTurn, alive,
      ⟨by rw [← tells.route, same.1], by rw [← tells.context, same.2], extended⟩, ?_⟩
    intro other longer kept_ alive_ reaches
    exact longest other (inContext other longer kept_ alive_ reaches) longer kept_ reaches.isPrefix

end World

/-- What becomes of a request with the given messages keeps them. -/
theorem proceed_spec (available : Bool) (request : Request) (original payload : Value)
    (route : Route) (restored : Bool) :
    match proceed available request original payload route restored with
    | .pass sent body => sent = route ∧ (restored = true → ∃ written, body = some written ∧
        messages route.inboundProtocol written = messages route.inboundProtocol payload)
    | .search pending => pending.route = route ∧ pending.original = original ∧
        messages route.inboundProtocol pending.payload = messages route.inboundProtocol payload
    | .refuse _ _ => True := by
  unfold proceed
  split
  · rename_i sent body reached
    split at reached
    · cases reached
      exact ⟨rfl, fun restored => ⟨payload, if_pos restored, rfl⟩⟩
    · split at reached
      · cases reached
      · rename_i plan written prepared
        split at reached
        · cases reached
          exact ⟨rfl, fun _ => ⟨written, rfl, (prepare_keeps prepared).2⟩⟩
        · split at reached <;> cases reached
  · rename_i pending reached
    split at reached
    · cases reached
    · split at reached
      · cases reached
      · rename_i plan written prepared
        obtain ⟨isObject, kept⟩ := prepare_keeps prepared
        split at reached
        · cases reached
        · split at reached
          · cases reached
          · cases reached
            refine ⟨rfl, rfl, ?_⟩
            rw [messages_congr (Value.get_remove _ (Ne.symm (ne_field (by decide) (by decide)))),
              messages_set isObject (ne_field (by decide) (by decide)), kept]
  · trivial

/-- A request that the gateway handles, told by what it finds in the memory. -/
theorem World.forward_eq (world : World) (available : Bool) {request : Request} {body : Value}
    (isBody : request.body = some body) (noImage : request.image = false)
    (notNative : native outside request.route request.route.inboundProtocol = false) :
    forward outside available world.clock world.history request =
      (world.history.expire world.clock, match world.found outside request with
        | none => proceed available request body body request.route false
        | some found =>
          if (request.route.pin found.1.target).targets.isEmpty then
            .refuse 409 "search conversation account is no longer available"
          else proceed available request body
            (body.set (field request.route.inboundProtocol) (.array found.2))
            (request.route.pin found.1.target) true) := by
  simp only [forward, isBody, noImage, notNative, Bool.or_self, Bool.false_eq_true, if_false,
    World.found, Option.bind_some, History.restore]
  cases h : (world.history.lookup outside world.clock request.route.id
      request.route.inboundProtocol body body).2 with
  | none => simp only [Option.map_none]; rfl
  | some found =>
    simp only [Option.map_some]
    split <;> rfl

/-- Any other request is passed on. -/
theorem forward_pass (world : World) (available : Bool) {request : Request}
    (other : ¬∃ body, request.body = some body ∧ request.image = false ∧
      native outside request.route request.route.inboundProtocol = false) :
    forward outside available world.clock world.history request =
      (world.history, .pass request.route request.body) := by
  unfold forward
  split
  · rename_i isBody
    rw [isBody]
  · rename_i body isBody
    split
    · rfl
    · rename_i handled
      simp only [Bool.or_eq_true, not_or, Bool.not_eq_true] at handled
      exact absurd ⟨body, isBody, handled.1, handled.2⟩ other

/-- The targets that are left have the identity asked for. -/
theorem pin_targets (route : Route) (target : Uuid) :
    ∀ held ∈ (route.pin target).targets, held.id = target := fun _ kept =>
  of_decide_eq_true (List.mem_filter.mp kept).2

/-- A clear request is restored from the longest turn it extends. -/
theorem World.restores {world : World} (sound : world.Sound outside) {available : Bool}
    {request : Request} (clear : Clear outside world (.arrive available request)) :
    world.Restores outside available request := by
  intro body incoming handled entry turn kept alive extended longest
  obtain ⟨-, unextended⟩ | ⟨held, same, found, isTurn, alive', extended', longest'⟩ :=
    World.found_spec sound clear handled.isBody handled.areMessages
  · exact absurd extended (unextended entry turn kept alive)
  · have kept' := World.turnOf_mem isTurn
    have lengths : same.public.length = turn.public.length :=
      le_antisymm (longest held same kept' alive' extended')
        (longest' entry turn kept alive extended)
    have samePublic : same.public = turn.public :=
      List.IsPrefix.eq_of_length (List.prefix_of_prefix_length_le extended'.isPrefix
        extended.isPrefix lengths.le) lengths
    have isBase : world.base outside request = some same := by
      rw [World.base, found, Option.bind_some, isTurn]
    refine ⟨held, same, kept', alive', extended', samePublic, isBase, ?_⟩
    have target := (sound.told held same kept').target
    rw [World.forward_eq world available handled.isBody handled.noImage handled.notNative, found]
    simp only [target]
    split
    · trivial
    · have written : messages request.route.inboundProtocol
          (body.set (field request.route.inboundProtocol) (.array (start (some same) incoming))) =
            some (start (some same) incoming) :=
        messages_written (isObject_of_messages handled.areMessages) _
      have proceeds := proceed_spec available request body
        (body.set (field request.route.inboundProtocol)
          (.array (start (some same) incoming)))
        (request.route.pin same.searched.target) true
      revert proceeds
      cases proceed available request body (body.set (field request.route.inboundProtocol)
        (.array (start (some same) incoming))) (request.route.pin same.searched.target) true with
      | pass route sent =>
        rintro ⟨rfl, sends⟩
        obtain ⟨payload, isPayload, same_messages⟩ := sends rfl
        exact ⟨⟨payload, isPayload, same_messages.trans written⟩, pin_targets _ _⟩
      | search pending =>
        rintro ⟨isRoute, -, same_messages⟩
        rw [Outcome.Sends, isRoute]
        exact ⟨same_messages.trans written, pin_targets _ _⟩
      | refuse status reason => exact fun _ => trivial

end Aipass.Search
