import Aipass.Claude.Collector
import Aipass.Search.Usage

/-!
# The rounds of a hidden search are one reply

The process sends one message for each round. A message goes on when it calls the search of the
process and no tool of the caller. The events of a turn are adapted to one reply: the blocks of all
messages but the search calls, numbered in order, and the end of the last message. Its usage adds up
the counters of the rounds, unless a later round puts something else in the place of a counter: a
null replaces what was counted.
-/
namespace Aipass.Claude

/-! ## Usages -/

/-- A field that is no object is added as the gateway adds it. -/
theorem sumFields_leaf {value : Value} (leaf : value.asObject = none) (key : String)
    (out rest : List (String × Value)) :
    sumFields out ((key, value) :: rest) =
      sumFields (Value.insertField key
        (Search.combined ((Value.lookup key out).getD .null) value) out) rest := by
  have old : ((Value.lookup key out).bind Value.asU64).getD 0 =
      (((Value.lookup key out).getD .null).asU64).getD 0 := by
    cases Value.lookup key out <;> rfl
  cases value with
  | object fields => cases leaf
  | number number =>
    cases number with
    | unsigned count =>
      rw [Search.combined, ← old]
      rfl
    | _ => rfl
  | _ => rfl

mutual

/-- The usages of the process are added as those of the gateway. -/
theorem sum_eq : ∀ (left value : Value), sum left value = Search.sumUsage left value
  | left, .object fields => by
    rw [sum, Search.sumUsage, sumFields_eq]
  | _, .null => rfl
  | _, .bool _ => rfl
  | _, .number _ => rfl
  | _, .string _ => rfl
  | _, .array _ => rfl

/-- So are their fields. -/
theorem sumFields_eq : ∀ (out fields : List (String × Value)),
    sumFields out fields = Search.sumFields out fields
  | _, [] => rfl
  | out, (key, .object fields) :: rest => by
    rw [sumFields, Search.sumFields_cons, Search.combined, sum_eq, sumFields_eq]
  | out, (key, .null) :: rest => by
    rw [sumFields_leaf rfl, Search.sumFields_cons, sumFields_eq]
  | out, (key, .bool _) :: rest => by
    rw [sumFields_leaf rfl, Search.sumFields_cons, sumFields_eq]
  | out, (key, .number _) :: rest => by
    rw [sumFields_leaf rfl, Search.sumFields_cons, sumFields_eq]
  | out, (key, .string _) :: rest => by
    rw [sumFields_leaf rfl, Search.sumFields_cons, sumFields_eq]
  | out, (key, .array _) :: rest => by
    rw [sumFields_leaf rfl, Search.sumFields_cons, sumFields_eq]

end

/-- A usage puts something else in the place of a counter. -/
def hides (usage : Value) : List String → Bool
  | [] => false
  | key :: path =>
    match usage.get key with
    | some value => Search.hides path value
    | none => false

/-- A counter of a sum is the sum of the counters up to 64 bits, unless the later usage hides the
earlier one. -/
theorem count_sum {total usage : Value} (distinct : usage.Distinct) {path : List String}
    (some_ : path ≠ []) (fits : total.count path ≤ 2 ^ 64 - 1) :
    (sum total usage).count path =
      if hides usage path then 0 else min (total.count path + usage.count path) (2 ^ 64 - 1) := by
  cases path with
  | nil => exact absurd rfl some_
  | cons key path =>
    rw [sum_eq, Value.count, Search.field_sumUsage distinct, hides]
    cases found : usage.get key with
    | some value =>
      have isField : usage.field key = value := by rw [Value.field, found]; rfl
      simp only [Value.count, isField]
      exact Search.count_combined (distinct.get found) path fits
    | none =>
      have absent : usage.count (key :: path) = 0 := by
        rw [Value.count, Value.field, found]
        exact Value.count_null path
      simp only [absent, Nat.add_zero]
      exact (Nat.min_eq_left fits).symm

/-- What a usage hides it does not count. -/
theorem count_of_hides {usage : Value} {path : List String} (hidden : hides usage path = true) :
    usage.count path = 0 := by
  have below : ∀ (path : List String) (value : Value), Search.hides path value = true →
      value.count path = 0 := by
    intro path
    induction path with
    | nil =>
      intro value hidden
      rw [Search.hides, Option.isNone_iff_eq_none] at hidden
      rw [Value.count, hidden]
      rfl
    | cons key path ih =>
      intro value hidden
      cases value with
      | object fields =>
        rw [Search.hides] at hidden
        split at hidden
        · next value found =>
          have isField : (Value.object fields).field key = value := by
            rw [Value.field, Value.get, found]
            rfl
          rw [Value.count, isField]
          exact ih value hidden
        · cases hidden
      | _ => exact Value.count_of_not_object rfl (List.cons_ne_nil _ _)
  cases path with
  | nil => cases hidden
  | cons key path =>
    rw [hides] at hidden
    split at hidden
    · next value found =>
      rw [Value.count, Value.field, found]
      exact below path value hidden
    · cases hidden

/-- No usage hides what an earlier one has counted, and 64 bits hold the sum. -/
def Kept (usages : List Value) (path : List String) : Prop :=
  usages.Pairwise (fun earlier later => hides later path = true → earlier.count path = 0) ∧
    (usages.map (Value.count path)).sum ≤ 2 ^ 64 - 1

/-- The counter of a sum over a total that counts no more than it should. -/
theorem count_foldl_iff {usages : List Value} (distinct : ∀ usage ∈ usages, usage.Distinct)
    {path : List String} (some_ : path ≠ []) {total : Value} {counted : ℕ}
    (atMost : total.count path ≤ counted) (fits : total.count path ≤ 2 ^ 64 - 1) :
    (usages.foldl sum total).count path ≤ counted + (usages.map (Value.count path)).sum ∧
    ((usages.foldl sum total).count path = counted + (usages.map (Value.count path)).sum ↔
      total.count path = counted ∧
      (∀ usage ∈ usages, hides usage path = true → counted = 0) ∧
      usages.Pairwise (fun earlier later => hides later path = true → earlier.count path = 0) ∧
      counted + (usages.map (Value.count path)).sum ≤ 2 ^ 64 - 1) := by
  induction usages generalizing total counted with
  | nil =>
    simp only [List.foldl_nil, List.map_nil, List.sum_nil, Nat.add_zero, List.not_mem_nil,
      false_implies, implies_true, List.Pairwise.nil, true_and]
    refine ⟨atMost, ?_⟩
    omega
  | cons usage rest ih =>
    have next := count_sum (distinct usage List.mem_cons_self) some_ fits
    have nextFits : (sum total usage).count path ≤ 2 ^ 64 - 1 := by
      rw [next]
      split
      · exact Nat.zero_le _
      · exact Nat.min_le_right _ _
    have nextAtMost : (sum total usage).count path ≤ counted + usage.count path := by
      rw [next]
      split
      · exact Nat.zero_le _
      · exact (Nat.min_le_left _ _).trans (Nat.add_le_add_right atMost _)
    obtain ⟨bound, exact_⟩ := ih (fun other listed => distinct other (List.mem_cons_of_mem _ listed))
      nextAtMost nextFits
    rw [List.foldl_cons, List.map_cons, List.sum_cons, ← Nat.add_assoc]
    refine ⟨bound, exact_.trans ?_⟩
    rw [next, List.forall_mem_cons, List.pairwise_cons]
    by_cases hidden : hides usage path = true
    · rw [if_pos hidden, count_of_hides hidden]
      constructor
      · rintro ⟨zero, later, pairs, sum_⟩
        exact ⟨by omega, ⟨fun _ => by omega, fun other listed hides_ => by
          have := later other listed hides_
          omega⟩, ⟨fun _ _ _ => rfl, pairs⟩, sum_⟩
      · rintro ⟨same, ⟨zero, later⟩, ⟨-, pairs⟩, sum_⟩
        have none_ := zero hidden
        exact ⟨by omega, fun other listed hides_ => by omega, pairs, sum_⟩
    · rw [if_neg hidden]
      constructor
      · rintro ⟨added, later, pairs, sum_⟩
        refine ⟨by omega, ⟨fun hides_ => absurd hides_ hidden, fun other listed hides_ => ?_⟩,
          ⟨fun other listed hides_ => ?_, pairs⟩, sum_⟩
        · have := later other listed hides_
          omega
        · have := later other listed hides_
          omega
      · rintro ⟨same, ⟨-, later⟩, ⟨own, pairs⟩, sum_⟩
        refine ⟨by omega, fun other listed hides_ => ?_, pairs, sum_⟩
        have := later other listed hides_
        have := own other listed hides_
        omega

/-- The counter of the usages added up is the sum of the counters exactly when none is hidden. -/
theorem count_total_iff {usages : List Value} (distinct : ∀ usage ∈ usages, usage.Distinct)
    {path : List String} (some_ : path ≠ []) :
    (usages.foldl sum .null).count path = (usages.map (Value.count path)).sum ↔
      Kept usages path := by
  have nothing : Value.null.count path = 0 := Value.count_null path
  have total := (@count_foldl_iff usages distinct path some_ .null 0 (Nat.le_of_eq nothing)
    (by rw [nothing]; exact Nat.zero_le _)).2
  rw [Nat.zero_add] at total
  rw [total, Kept]
  exact ⟨fun held => held.2.2, fun held => ⟨nothing, fun _ _ _ => rfl, held⟩⟩

/-! ## Messages -/

/-- The kinds of events that `adapt` treats. -/
def adaptedKinds : List String :=
  ["message_start", "content_block_start", "content_block_delta", "content_block_stop",
    "message_delta", "message_stop"]

/-- An event of another kind. -/
def isAside (event : Value) : Bool :=
  match (event.field "type").asStr with
  | some kind => kind ∉ adaptedKinds
  | none => true

/-- A block of a message: its start, what comes before its stop, and its stop. -/
structure Block where
  index : ℕ
  start : Value
  inner : List Value
  stop : Value

/-- The event is of a kind and belongs to a block. -/
def IsOf (kind : String) (index : ℕ) (event : Value) : Prop :=
  (event.field "type").asStr = some kind ∧ (event.field "index").asU64 = some index

/-- The events of a block belong to it. -/
structure Block.WellFormed (block : Block) : Prop where
  start : IsOf "content_block_start" block.index block.start
  inner : ∀ event ∈ block.inner, isAside event ∨ IsOf "content_block_delta" block.index event
  stop : IsOf "content_block_stop" block.index block.stop

/-- A call of a tool. -/
def Block.isCall (block : Block) : Bool :=
  (block.start.field "content_block").field "type" = "tool_use"

/-- A call of the search of the process. -/
def Block.isSearch (block : Block) : Bool :=
  block.isCall && (block.start.field "content_block").field "name" = "WebSearch"

/-- A part of a message between its start and its delta. -/
inductive Part
  | block (block : Block)
  | aside (event : Value)

/-- The events of a part. -/
def Part.events : Part → List Value
  | .block own => own.start :: own.inner ++ [own.stop]
  | .aside event => [event]

/-- The block of a part. -/
def Part.block? : Part → Option Block
  | .block own => some own
  | .aside _ => none

/-- A part is a block or an event of another kind. -/
def Part.WellFormed : Part → Prop
  | .block own => own.WellFormed
  | .aside event => isAside event

/-- A message of the process. -/
structure Message where
  start : Value
  parts : List Part
  delta : Value
  stop : Value

namespace Message

variable (message : Message)

/-- The events of a message. -/
def events : List Value :=
  message.start :: message.parts.flatMap Part.events ++ [message.delta, message.stop]

/-- The blocks of a message. -/
def blocks : List Block := message.parts.filterMap Part.block?

/-- The calls of the search of the process. -/
def searches : ℕ := message.blocks.countP Block.isSearch

/-- The process goes on after the message with another. -/
def goesOn : Bool :=
  message.blocks.any Block.isSearch &&
    !message.blocks.any fun block => block.isCall && !block.isSearch

/-- The usage at the start. -/
def startUsage : Value := (message.start.field "message").field "usage"

/-- What the message reports under a key: its delta is cumulative. -/
def reported (key : String) : Option Value :=
  ((message.delta.field "usage").get key).or (message.startUsage.get key)

/-- A counter of the message; what is absent or null counts as zero. -/
def count : List String → ℕ
  | [] => 0
  | key :: path => ((message.reported key).getD .null).count path

/-- The message puts something else in the place of a counter. -/
def hides : List String → Bool
  | [] => false
  | key :: path =>
    match message.reported key with
    | some value => Search.hides path value
    | none => false

/-- The events of a message come in order and belong to it. -/
structure WellFormed : Prop where
  start : (message.start.field "type").asStr = some "message_start"
  startUsage : message.startUsage = .null ∨ message.startUsage.IsObject
  startOrdered : message.startUsage.KeysOrdered
  startDistinct : message.startUsage.Distinct
  parts : ∀ part ∈ message.parts, part.WellFormed
  indices : (message.blocks.map Block.index).Nodup
  delta : (message.delta.field "type").asStr = some "message_delta"
  deltaDistinct : (message.delta.field "usage").Distinct
  stop : (message.stop.field "type").asStr = some "message_stop"

end Message

/-- An event of a block under the block's new index. -/
def renumber (index : ℕ) (event : Value) : Value :=
  if isAside event then event else event.set "index" (.nat index)

/-- The parts as the reply has them from an index on: the blocks but the search calls, numbered in
order. -/
def number (index : ℕ) : List Part → List Value
  | [] => []
  | .aside event :: rest => event :: number index rest
  | .block block :: rest =>
    if block.isSearch then block.inner.filter isAside ++ number index rest
    else (Part.block block).events.map (renumber index) ++ number (index + 1) rest

/-- The blocks that the reply has. -/
def visible (parts : List Part) : ℕ :=
  (parts.filterMap Part.block?).countP fun block => !block.isSearch

/-- `adapt` for one event after another: what is left and what is part of the reply. -/
def adaptAll : Events → List Value → Option (Except String (Events × List Value))
  | events, [] => some (.ok (events, []))
  | events, event :: rest =>
    match events.adapt event with
    | none => none
    | some (.error error) => some (.error error)
    | some (.ok (next, out)) =>
      match adaptAll next rest with
      | none => none
      | some (.error error) => some (.error error)
      | some (.ok (last, more)) => some (.ok (last, out.toList ++ more))

/-- An event before others. -/
theorem adaptAll_cons {events next last : Events} {event : Value} {rest more : List Value}
    {out : Option Value} (first : events.adapt event = some (.ok (next, out)))
    (others : adaptAll next rest = some (.ok (last, more))) :
    adaptAll events (event :: rest) = some (.ok (last, out.toList ++ more)) := by
  rw [adaptAll, first]
  simp only [others]

/-- A single event. -/
theorem adaptAll_single {events next : Events} {event : Value} {out : Option Value}
    (passes : events.adapt event = some (.ok (next, out))) :
    adaptAll events [event] = some (.ok (next, out.toList)) := by
  rw [adaptAll, passes]
  simp [adaptAll]

/-- Events before others. -/
theorem adaptAll_append {events next last : Events} {lead rest out more : List Value}
    (first : adaptAll events lead = some (.ok (next, out)))
    (others : adaptAll next rest = some (.ok (last, more))) :
    adaptAll events (lead ++ rest) = some (.ok (last, out ++ more)) := by
  induction lead generalizing events out with
  | nil =>
    cases first
    exact others
  | cons event lead ih =>
    rw [adaptAll] at first
    split at first
    · cases first
    · cases first
    · next middle passed step =>
      split at first
      · cases first
      · cases first
      · next later inner tail =>
        cases first
        rw [List.append_assoc]
        exact adaptAll_cons step (ih tail)

/-- An event of another kind is passed on as it is. -/
theorem adapt_aside (events : Events) {event : Value} (aside : isAside event = true) :
    events.adapt event = some (.ok (events, some event)) := by
  unfold Events.adapt
  unfold isAside at aside
  split at aside
  · next kind isKind =>
    rw [isKind]
    have other : kind ∉ adaptedKinds := by simpa using aside
    simp only [adaptedKinds, List.mem_cons, List.not_mem_nil, or_false, not_or] at other
    obtain ⟨h1, h2, h3, h4, h5, h6⟩ := other
    split <;> simp_all
  · next none_ =>
    rw [none_]

/-- A delta or a stop of a block. -/
theorem adapt_blockEvent (events : Events) {kind : String} {index : ℕ} {event : Value}
    (isKind : kind = "content_block_delta" ∨ kind = "content_block_stop")
    (of : IsOf kind index event) :
    events.adapt event = some (.ok (events, (events.indices.lookup index).map fun new =>
      event.set "index" (.nat new))) := by
  unfold Events.adapt
  rcases isKind with rfl | rfl <;> simp only [of.1, of.2]

/-- An event of a block is no aside. -/
theorem not_isAside {kind : String} {index : ℕ} {event : Value} (listed : kind ∈ adaptedKinds)
    (of : IsOf kind index event) : isAside event = false := by
  rw [isAside, of.1]
  simpa using listed

/-- The events inside a block whose new index is known, or none where the block is hidden. -/
theorem adaptAll_inner (events : Events) {index : ℕ} {inner : List Value}
    (of : ∀ event ∈ inner, isAside event ∨ IsOf "content_block_delta" index event) :
    adaptAll events inner = some (.ok (events, match events.indices.lookup index with
      | some new => inner.map (renumber new)
      | none => inner.filter isAside)) := by
  induction inner with
  | nil => cases events.indices.lookup index <;> rfl
  | cons event rest ih =>
    have others := ih fun other listed => of other (List.mem_cons_of_mem _ listed)
    rcases of event List.mem_cons_self with aside | delta
    · rw [adaptAll_cons (adapt_aside events aside) others]
      cases events.indices.lookup index <;> simp [renumber, aside]
    · have own : isAside event = false := not_isAside (by decide) delta
      rw [adaptAll_cons (adapt_blockEvent events (.inl rfl) delta) others]
      cases events.indices.lookup index <;> simp [renumber, own]

/-- A hidden block is counted, and nothing of it is part of the reply. -/
theorem adaptAll_search (events : Events) {block : Block} (wellFormed : block.WellFormed)
    (search : block.isSearch = true) (new : events.indices.lookup block.index = none) :
    adaptAll events (Part.block block).events =
      some (.ok ({ events with own := true, searches := events.searches + 1 },
        block.inner.filter isAside)) := by
  have isSearch : (block.start.field "content_block").field "type" = "tool_use" ∧
      (block.start.field "content_block").field "name" = "WebSearch" := by
    simpa [Block.isSearch, Block.isCall] using search
  have start : events.adapt block.start =
      some (.ok ({ events with own := true, searches := events.searches + 1 }, none)) := by
    unfold Events.adapt
    simp only [wellFormed.start.1, wellFormed.start.2, Events.blockStart]
    rw [if_pos isSearch]
  have inner := adaptAll_inner { events with own := true, searches := events.searches + 1 }
    wellFormed.inner
  have stop := adapt_blockEvent { events with own := true, searches := events.searches + 1 }
    (.inr rfl) wellFormed.stop
  simp only [new] at inner stop
  have last := adaptAll_single stop
  simpa [Part.events] using adaptAll_cons start (adaptAll_append inner last)

/-- A block that is part of the reply has the next index. -/
theorem adaptAll_visible (events : Events) {block : Block} (wellFormed : block.WellFormed)
    (shown : block.isSearch = false) :
    adaptAll events (Part.block block).events =
      some (.ok ({ events with
          caller := events.caller || block.isCall
          indices := (block.index, events.next) :: events.indices
          next := events.next + 1 },
        (Part.block block).events.map (renumber events.next))) := by
  have notSearch : ¬ ((block.start.field "content_block").field "type" = "tool_use" ∧
      (block.start.field "content_block").field "name" = "WebSearch") := by
    simpa [Block.isSearch, Block.isCall] using shown
  have start : events.adapt block.start =
      some (.ok ({ events with
          caller := events.caller || block.isCall
          indices := (block.index, events.next) :: events.indices
          next := events.next + 1 }, some (block.start.set "index" (.nat events.next)))) := by
    unfold Events.adapt
    simp only [wellFormed.start.1, wellFormed.start.2, Events.blockStart]
    rw [if_neg notSearch]
    rfl
  have inner := adaptAll_inner { events with
    caller := events.caller || block.isCall
    indices := (block.index, events.next) :: events.indices
    next := events.next + 1 } wellFormed.inner
  have stop := adapt_blockEvent { events with
    caller := events.caller || block.isCall
    indices := (block.index, events.next) :: events.indices
    next := events.next + 1 } (.inr rfl) wellFormed.stop
  simp only [List.lookup_cons_self] at inner stop
  have last := adaptAll_single stop
  have startOwn : isAside block.start = false := not_isAside (by decide) wellFormed.start
  have stopOwn : isAside block.stop = false := not_isAside (by decide) wellFormed.stop
  simpa [Part.events, renumber, startOwn, stopOwn] using
    adaptAll_cons start (adaptAll_append inner last)

/-- The parts of a message as the reply has them, and what the message has called. -/
theorem adaptAll_parts (events : Events) {parts : List Part}
    (wellFormed : ∀ part ∈ parts, part.WellFormed)
    (distinct : ((parts.filterMap Part.block?).map Block.index).Nodup)
    (new : ∀ block ∈ parts.filterMap Part.block?, events.indices.lookup block.index = none) :
    ∃ indices, adaptAll events (parts.flatMap Part.events) = some (.ok ({ events with
        own := events.own || (parts.filterMap Part.block?).any Block.isSearch
        caller := events.caller ||
          (parts.filterMap Part.block?).any fun block => block.isCall && !block.isSearch
        indices := indices
        next := events.next + visible parts
        searches := events.searches + (parts.filterMap Part.block?).countP Block.isSearch },
      number events.next parts)) := by
  induction parts generalizing events with
  | nil => exact ⟨events.indices, by simp [adaptAll, visible, number]⟩
  | cons part rest ih =>
    have own := wellFormed part List.mem_cons_self
    have others : ∀ other ∈ rest, other.WellFormed := fun other listed =>
      wellFormed other (List.mem_cons_of_mem _ listed)
    cases part with
    | aside event =>
      obtain ⟨indices, run⟩ := ih events others distinct new
      refine ⟨indices, ?_⟩
      rw [List.flatMap_cons]
      exact adaptAll_append (adaptAll_single (adapt_aside events own)) run
    | block block =>
      simp only [List.filterMap_cons, Part.block?, List.map_cons, List.nodup_cons,
        List.mem_cons, forall_eq_or_imp] at distinct new
      have differ : ∀ other ∈ rest.filterMap Part.block?, other.index ≠ block.index :=
        fun other listed same => distinct.1 (same ▸ List.mem_map_of_mem listed)
      cases search : block.isSearch with
      | true =>
        obtain ⟨indices, run⟩ := ih
          { events with own := true, searches := events.searches + 1 } others distinct.2 new.2
        refine ⟨indices, ?_⟩
        rw [List.flatMap_cons,
          adaptAll_append (adaptAll_search events own search new.1) run]
        simp [visible, number, search, Part.block?, Nat.add_assoc, Nat.add_comm 1]
      | false =>
        obtain ⟨indices, run⟩ := ih { events with
            caller := events.caller || block.isCall
            indices := (block.index, events.next) :: events.indices
            next := events.next + 1 } others distinct.2 (fun other listed => by
          rw [List.lookup_cons, beq_false_of_ne (differ other listed)]
          exact new.2 other listed)
        refine ⟨indices, ?_⟩
        rw [List.flatMap_cons, adaptAll_append (adaptAll_visible events own search) run]
        simp [visible, number, search, Part.block?, Nat.add_assoc, Nat.add_comm 1, Bool.or_assoc]

/-- Fields written over a usage win over its own. -/
theorem writeAll_eq {base : Value} {fields : List (String × Value)}
    (writable : base = .null ∨ base.IsObject) (ordered : base.KeysOrdered)
    (distinct : (fields.map Prod.fst).Nodup) :
    ∃ usage, writeAll base fields = some usage ∧ usage.KeysOrdered ∧
      ∀ key, usage.get key = (Value.lookup key fields).or (base.get key) := by
  induction fields generalizing base with
  | nil => exact ⟨base, rfl, ordered, fun key => rfl⟩
  | cons field rest ih =>
    obtain ⟨key, value⟩ := field
    rw [List.map_cons, List.nodup_cons] at distinct
    have written : base.write key value = some (base.set key value) := by
      rcases writable with rfl | isObject
      · rfl
      · cases base with
        | object held => rfl
        | _ => exact isObject.elim
    have nextObject : (base.set key value).IsObject := by
      rcases writable with rfl | isObject
      · trivial
      · exact Value.isObject_set isObject key value
    have nextGet : ∀ sought, (base.set key value).get sought =
        if key = sought then some value else base.get sought := by
      intro sought
      rcases writable with rfl | isObject
      · rfl
      · exact Value.get_set isObject key sought value
    obtain ⟨usage, passes, stays, gets⟩ := ih (.inr nextObject) (ordered.set key value) distinct.2
    refine ⟨usage, ?_, stays, fun sought => ?_⟩
    · rw [writeAll, List.foldlM_cons, written]
      exact passes
    · rw [gets, nextGet, Value.lookup]
      by_cases same : key = sought
      · subst same
        rw [Value.lookup_of_not_mem distinct.1, if_pos rfl, if_pos rfl]
        rfl
      · rw [if_neg same, if_neg same]

namespace Message

variable {message : Message}

/-- The usage that the adapter keeps for a message. -/
def usage (message : Message) : Value :=
  (writeAll message.startUsage ((message.delta.field "usage").asObject.getD [])).getD .null

/-- The usage kept for a message is what the message reports. -/
theorem WellFormed.usage_eq (wellFormed : message.WellFormed) :
    writeAll message.startUsage ((message.delta.field "usage").asObject.getD []) =
      some message.usage ∧
    message.usage.Distinct ∧ ∀ key, message.usage.get key = message.reported key := by
  have fields : (((message.delta.field "usage").asObject.getD []).map Prod.fst).Nodup ∧
      ∀ key, Value.lookup key ((message.delta.field "usage").asObject.getD []) =
        (message.delta.field "usage").get key := by
    have distinct := wellFormed.deltaDistinct
    generalize message.delta.field "usage" = value at distinct
    cases value with
    | object held => exact ⟨distinct [] held rfl, fun key => rfl⟩
    | _ => exact ⟨List.nodup_nil, fun key => rfl⟩
  obtain ⟨usage, passes, ordered, gets⟩ :=
    writeAll_eq wellFormed.startUsage wellFormed.startOrdered fields.1
  have isUsage : message.usage = usage := by rw [Message.usage, passes]; rfl
  have reports : ∀ key, usage.get key = message.reported key := fun key => by
    rw [gets, fields.2, reported]
  refine ⟨isUsage ▸ passes, ?_, isUsage ▸ reports⟩
  rw [isUsage]
  intro path fields reached
  cases path with
  | nil =>
    cases reached
    exact ordered.nodup
  | cons key path =>
    rw [Value.pointer_cons, reports] at reached
    obtain ⟨inner, found, below⟩ := Option.bind_eq_some_iff.mp reached
    rw [reported] at found
    rcases Option.or_eq_some_iff.mp found with own | ⟨-, own⟩
    · exact wellFormed.deltaDistinct.get own path fields below
    · exact wellFormed.startDistinct.get own path fields below

/-- A counter of the usage is the counter of the message. -/
theorem WellFormed.count_usage (wellFormed : message.WellFormed) {path : List String}
    (some_ : path ≠ []) : message.usage.count path = message.count path := by
  cases path with
  | nil => exact absurd rfl some_
  | cons key path => rw [Value.count, Value.field, wellFormed.usage_eq.2.2, count]

/-- The usage hides what the message hides. -/
theorem WellFormed.hides_usage (wellFormed : message.WellFormed) (path : List String) :
    Claude.hides message.usage path = message.hides path := by
  cases path with
  | nil => rfl
  | cons key path => rw [Claude.hides, wellFormed.usage_eq.2.2, hides]

/-- The usage that the end of the reply reports. -/
def total (message : Message) (before : Value) (searches : ℕ) : Value :=
  if 0 < searches then
    (sum before message.usage).set "server_tool_use"
      (.obj [("web_search_requests", .nat searches)])
  else sum before message.usage

/-- What the reply has of a message before its end. -/
def shown (message : Message) (started : Bool) (index : ℕ) : List Value :=
  (if started then [] else [message.start]) ++ number index message.parts

/-- The adapter once it has seen the parts of a message. -/
def seen (message : Message) (events : Events) (indices : List (ℕ × ℕ)) : Events :=
  { events with
    started := true
    own := message.blocks.any Block.isSearch
    caller := message.blocks.any fun block => block.isCall && !block.isSearch
    indices
    next := events.next + visible message.parts
    current := message.startUsage
    searches := events.searches + message.searches }

/-- The adapter has seen the parts of a message. -/
theorem WellFormed.adaptAll_parts (wellFormed : message.WellFormed) (events : Events) :
    ∃ indices, adaptAll events (message.start :: message.parts.flatMap Part.events) =
      some (.ok (message.seen events indices, message.shown events.started events.next)) := by
  obtain ⟨indices, run⟩ := Claude.adaptAll_parts { events with
    started := true, own := false, caller := false, indices := []
    current := message.startUsage } wellFormed.parts wellFormed.indices (fun _ _ => rfl)
  refine ⟨indices, ?_⟩
  have start : events.adapt message.start = some (.ok ({ events with
      started := true, own := false, caller := false, indices := []
      current := message.startUsage },
      if events.started then none else some message.start)) := by
    unfold Events.adapt
    simp only [wellFormed.start]
    cases events with
    | mk started =>
      cases started <;> rfl
  rw [adaptAll_cons start run]
  cases started : events.started <;>
    simp [shown, seen, blocks, searches]

/-- The end of a message is kept back where the process goes on, and else ends the reply. -/
theorem WellFormed.adaptAll_end (wellFormed : message.WellFormed) (events : Events)
    (current : events.current = message.startUsage) :
    adaptAll events [message.delta, message.stop] = some (.ok (
      if events.own ∧ ¬ events.caller then
        ({ events with current := message.usage, before := sum events.before message.usage }, [])
      else ({}, [message.delta.set "usage" (message.total events.before events.searches),
        message.stop]))) := by
  have delta : events.adapt message.delta =
      some (.ok ({ events with current := message.usage }.messageDelta message.delta)) := by
    unfold Events.adapt
    simp only [wellFormed.delta, current, wellFormed.usage_eq.1, Option.map_some]
  have stop (state : Events) : state.adapt message.stop = some (.ok (
      if state.own ∧ ¬ state.caller then
        ({ state with before := sum state.before state.current }, none)
      else ({}, some message.stop))) := by
    unfold Events.adapt
    simp only [wellFormed.stop]
  by_cases goesOn : events.own ∧ ¬ events.caller
  · rw [Events.messageDelta, if_pos goesOn] at delta
    have last := stop { events with current := message.usage }
    rw [if_pos goesOn] at last
    rw [if_pos goesOn]
    exact adaptAll_cons delta (adaptAll_single last)
  · rw [Events.messageDelta, if_neg goesOn] at delta
    have last := stop { events with current := message.usage }
    rw [if_neg goesOn] at last
    rw [if_neg goesOn]
    exact adaptAll_cons delta (adaptAll_single last)

/-- A message that the process goes on after is part of the reply but for its end. -/
theorem WellFormed.adaptAll_goesOn (wellFormed : message.WellFormed) (events : Events)
    (goesOn : message.goesOn = true) :
    ∃ next : Events, adaptAll events message.events =
        some (.ok (next, message.shown events.started events.next)) ∧
      next.started = true ∧ next.next = events.next + visible message.parts ∧
      next.before = sum events.before message.usage ∧
      next.searches = events.searches + message.searches := by
  obtain ⟨indices, run⟩ := wellFormed.adaptAll_parts events
  rw [Message.goesOn, Bool.and_eq_true, Bool.not_eq_true'] at goesOn
  have ending := wellFormed.adaptAll_end (message.seen events indices) rfl
  rw [if_pos ⟨goesOn.1, by simp [seen, goesOn.2]⟩] at ending
  refine ⟨{ message.seen events indices with
    current := message.usage
    before := sum events.before message.usage }, ?_, rfl, rfl, rfl, rfl⟩
  have whole := adaptAll_append run ending
  rw [List.append_nil] at whole
  rw [Message.events]
  exact whole

/-- A message that the process does not go on after ends the reply. -/
theorem WellFormed.adaptAll_ends (wellFormed : message.WellFormed) (events : Events)
    (ends : message.goesOn = false) :
    adaptAll events message.events = some (.ok ({}, message.shown events.started events.next ++
      [message.delta.set "usage"
        (message.total events.before (events.searches + message.searches)), message.stop])) := by
  obtain ⟨indices, run⟩ := wellFormed.adaptAll_parts events
  have ending := wellFormed.adaptAll_end (message.seen events indices) rfl
  have notOn : ¬ ((message.seen events indices).own = true ∧
      ¬ (message.seen events indices).caller = true) := by
    rw [Message.goesOn] at ends
    simpa [seen] using ends
  rw [if_neg notOn] at ending
  rw [Message.events]
  exact adaptAll_append run ending

end Message

/-! ## Turns -/

/-- The messages of one turn: the process goes on after all but the last. -/
structure Turn (messages : List Message) : Prop where
  nonempty : messages ≠ []
  wellFormed : ∀ message ∈ messages, message.WellFormed
  goesOn : ∀ message ∈ messages.dropLast, message.goesOn = true

/-- The path of the counter of searches. -/
def searchRequests : List String := ["server_tool_use", "web_search_requests"]

/-- The calls of the search of the process in a turn. -/
def searchCount (messages : List Message) : ℕ := (messages.map Message.searches).sum

/-- A usage has the counters of all messages, and counts the calls of the search. -/
def CountsAll (messages : List Message) (usage : Value) : Prop :=
  (∀ path ≠ [], path ≠ searchRequests →
    usage.count path = (messages.map fun message => message.count path).sum) ∧
  usage.count searchRequests = searchCount messages

/-- A turn is one reply: one start, the blocks of all messages but the calls of the search, numbered
in order, and, unless the process goes on after the last message, its end with the usage of all
messages; then the adapter is as at the start. -/
def OneReply (messages : List Message) : Prop :=
  ∃ first last events out, messages.head? = some first ∧ messages.getLast? = some last ∧
    adaptAll {} (messages.flatMap Message.events) = some (.ok (events, out)) ∧
    if last.goesOn then out = first.start :: number 0 (messages.flatMap Message.parts)
    else events = {} ∧ ∃ usage, CountsAll messages usage ∧
      out = first.start :: number 0 (messages.flatMap Message.parts) ++
        [last.delta.set "usage" usage, last.stop]

/-- What a turn reports adds up to what the reply reports: no message hides a counter of an earlier
one and 64 bits hold the sums, and under the usage of server tools nothing else is counted than the
searches. -/
structure Countable (messages : List Message) : Prop where
  kept : ∀ path ≠ [], path ≠ searchRequests →
    (0 < searchCount messages → path.head? ≠ some "server_tool_use") →
    messages.Pairwise (fun earlier later =>
      later.hides path = true → earlier.count path = 0) ∧
    (messages.map fun message => message.count path).sum ≤ 2 ^ 64 - 1
  serverTools : 0 < searchCount messages → ∀ path ≠ searchRequests,
    path.head? = some "server_tool_use" →
    (messages.map fun message => message.count path).sum = 0
  requests : searchCount messages = 0 →
    (messages.map fun message => message.count searchRequests).sum = 0

/-- The parts of two messages are numbered one after the other. -/
theorem number_append (index : ℕ) (left right : List Part) :
    number index (left ++ right) = number index left ++ number (index + visible left) right := by
  induction left generalizing index with
  | nil => simp [number, visible]
  | cons part rest ih =>
    cases part with
    | aside event =>
      simp only [List.cons_append, number, ih]
      rfl
    | block block =>
      simp only [List.cons_append, number, ih]
      cases search : block.isSearch <;>
        simp [visible, Part.block?, search, Nat.add_assoc, Nat.add_comm 1]

/-- The messages that the process goes on after are part of the reply but for their ends. -/
theorem adaptAll_messages (events : Events) {messages : List Message}
    (wellFormed : ∀ message ∈ messages, message.WellFormed)
    (goesOn : ∀ message ∈ messages, message.goesOn = true) (started : events.started = true) :
    ∃ next : Events, adaptAll events (messages.flatMap Message.events) =
        some (.ok (next, number events.next (messages.flatMap Message.parts))) ∧
      next.started = true ∧
      next.next = events.next + visible (messages.flatMap Message.parts) ∧
      next.before = (messages.map Message.usage).foldl sum events.before ∧
      next.searches = events.searches + searchCount messages := by
  induction messages generalizing events with
  | nil => exact ⟨events, rfl, started, rfl, rfl, rfl⟩
  | cons message rest ih =>
    obtain ⟨middle, run, on, index, before, searches⟩ :=
      (wellFormed message List.mem_cons_self).adaptAll_goesOn events
        (goesOn message List.mem_cons_self)
    obtain ⟨next, others, still, later, sums, counts⟩ := ih middle
      (fun other listed => wellFormed other (List.mem_cons_of_mem _ listed))
      (fun other listed => goesOn other (List.mem_cons_of_mem _ listed)) on
    refine ⟨next, ?_, still, ?_, ?_, ?_⟩
    · rw [List.flatMap_cons, adaptAll_append run others, List.flatMap_cons, number_append, index,
        Message.shown, started]
      rfl
    · rw [later, index, List.flatMap_cons]
      simp [visible, Nat.add_assoc]
    · rw [sums, before]
      rfl
    · rw [counts, searches, searchCount, searchCount, List.map_cons, List.sum_cons, Nat.add_assoc]

/-- What is kept of the usages is what the messages keep. -/
theorem kept_iff {messages : List Message} (wellFormed : ∀ message ∈ messages, message.WellFormed)
    {path : List String} (some_ : path ≠ []) :
    Kept (messages.map Message.usage) path ↔
      messages.Pairwise (fun earlier later =>
        later.hides path = true → earlier.count path = 0) ∧
      (messages.map fun message => message.count path).sum ≤ 2 ^ 64 - 1 := by
  have counts : (messages.map Message.usage).map (Value.count path) =
      messages.map fun message => message.count path := by
    rw [List.map_map]
    exact List.map_congr_left fun message listed => (wellFormed message listed).count_usage some_
  rw [Kept, counts, List.pairwise_map]
  refine and_congr_left fun _ => List.Pairwise.iff_of_mem fun {earlier later} first second => ?_
  rw [(wellFormed later second).hides_usage, (wellFormed earlier first).count_usage some_]

/-- The counter of the usages added up. -/
theorem count_usages_iff {messages : List Message}
    (wellFormed : ∀ message ∈ messages, message.WellFormed) {path : List String}
    (some_ : path ≠ []) :
    ((messages.map Message.usage).foldl sum .null).count path =
        (messages.map fun message => message.count path).sum ↔
      messages.Pairwise (fun earlier later =>
        later.hides path = true → earlier.count path = 0) ∧
      (messages.map fun message => message.count path).sum ≤ 2 ^ 64 - 1 := by
  have counts : (messages.map Message.usage).map (Value.count path) =
      messages.map fun message => message.count path := by
    rw [List.map_map]
    exact List.map_congr_left fun message listed => (wellFormed message listed).count_usage some_
  have distinct : ∀ usage ∈ messages.map Message.usage, usage.Distinct := by
    intro usage listed
    obtain ⟨message, held, rfl⟩ := List.mem_map.mp listed
    exact (wellFormed message held).usage_eq.2.1
  rw [← kept_iff wellFormed some_, ← count_total_iff distinct some_, counts]

/-- The sum of usages is an object. -/
theorem isObject_sum (left value : Value) : (sum left value).IsObject := by
  cases value <;> trivial

/-- The counters of a usage whose searches are counted. -/
theorem count_setRequests {usage : Value} (isObject : usage.IsObject) (searches : ℕ)
    (path : List String) :
    (usage.set "server_tool_use" (.obj [("web_search_requests", .nat searches)])).count path =
      if path = searchRequests then searches
      else if path.head? = some "server_tool_use" then 0 else usage.count path := by
  cases path with
  | nil =>
    cases usage with
    | object fields => rfl
    | _ => exact isObject.elim
  | cons key path =>
    rw [Value.count, Value.field, Value.get_set isObject]
    by_cases isTools : "server_tool_use" = key
    · subst isTools
      rw [if_pos rfl, Option.getD_some]
      cases path with
      | nil => rfl
      | cons next path =>
        rw [Value.count, Value.field, Value.get_obj_cons]
        by_cases isRequests : "web_search_requests" = next
        · subst isRequests
          cases path with
          | nil => rfl
          | cons below path =>
            rw [if_pos rfl, if_neg (by simp [searchRequests]), if_pos List.head?_cons]
            exact Search.count_number (.unsigned searches) below path
        · rw [if_neg isRequests]
          have other : ¬ next = "web_search_requests" := fun same => isRequests same.symm
          simpa [searchRequests, other] using Value.count_null path
    · have other : ¬ key = "server_tool_use" := fun same => isTools same.symm
      rw [if_neg isTools]
      simp [searchRequests, other, Value.count, Value.field]

/-- The end of a turn reports the counters of all messages exactly when they are countable. -/
theorem countsAll_iff {lead : List Message} {last : Message}
    (wellFormed : ∀ message ∈ lead ++ [last], message.WellFormed)
    (goesOn : ∀ message ∈ lead, message.goesOn = true) :
    CountsAll (lead ++ [last]) (last.total ((lead.map Message.usage).foldl sum .null)
      (searchCount (lead ++ [last]))) ↔ Countable (lead ++ [last]) := by
  have folded : sum ((lead.map Message.usage).foldl sum .null) last.usage =
      ((lead ++ [last]).map Message.usage).foldl sum .null := by
    rw [List.map_append, List.foldl_append]
    rfl
  have isObject : (((lead ++ [last]).map Message.usage).foldl sum .null).IsObject :=
    folded ▸ isObject_sum _ _
  rw [Message.total, folded]
  by_cases searched : 0 < searchCount (lead ++ [last])
  · rw [if_pos searched]
    constructor
    · rintro ⟨sums, -⟩
      refine ⟨fun path some_ other apart => ?_, fun _ path other inside => ?_,
        fun none_ => absurd none_ (Nat.ne_of_gt searched)⟩
      · have here := sums path some_ other
        rw [count_setRequests isObject, if_neg other, if_neg (apart searched)] at here
        exact (count_usages_iff wellFormed some_).mp here
      · have some_ : path ≠ [] := by
          rintro rfl
          cases inside
        have here := sums path some_ other
        rw [count_setRequests isObject, if_neg other, if_pos inside] at here
        exact here.symm
    · intro countable
      refine ⟨fun path some_ other => ?_, ?_⟩
      · rw [count_setRequests isObject, if_neg other]
        by_cases inside : path.head? = some "server_tool_use"
        · rw [if_pos inside, countable.serverTools searched path other inside]
        · rw [if_neg inside]
          exact (count_usages_iff wellFormed some_).mpr
            (countable.kept path some_ other fun _ => inside)
      · rw [count_setRequests isObject, if_pos rfl]
  · rw [if_neg searched]
    have none_ : searchCount (lead ++ [last]) = 0 := Nat.eq_zero_of_not_pos searched
    have alone : lead = [] := by
      cases lead with
      | nil => rfl
      | cons first rest =>
        have calls := goesOn first List.mem_cons_self
        rw [Message.goesOn, Bool.and_eq_true] at calls
        have counted : 0 < first.searches := by
          rw [Message.searches, List.countP_pos_iff]
          simpa using calls.1
        rw [searchCount, List.cons_append, List.map_cons, List.sum_cons] at none_
        omega
    subst alone
    have isLast : last.WellFormed := wellFormed last (by simp)
    have requests : ((([] ++ [last]).map Message.usage).foldl sum .null).count searchRequests = 0 ↔
        ((([] : List Message) ++ [last]).map fun message => message.count searchRequests).sum = 0 := by
      have nothing : Value.null.count searchRequests = 0 := Value.count_null _
      have single := @count_sum .null last.usage isLast.usage_eq.2.1 searchRequests (by decide)
        (by rw [nothing]; exact Nat.zero_le _)
      have reported : last.usage.count searchRequests = last.count searchRequests :=
        isLast.count_usage (by decide)
      have folded : (([] ++ [last]).map Message.usage).foldl sum .null = sum .null last.usage := rfl
      rw [folded, single, nothing]
      simp only [List.nil_append, List.map_cons, List.map_nil, List.sum_cons, List.sum_nil,
        Nat.add_zero, Nat.zero_add]
      rw [← reported]
      split
      · next hidden => exact iff_of_true rfl (count_of_hides hidden)
      · omega
    constructor
    · rintro ⟨sums, counted⟩
      refine ⟨fun path some_ other _ => (count_usages_iff wellFormed some_).mp
        (sums path some_ other), fun positive => absurd positive searched, fun _ => ?_⟩
      exact requests.mp (counted.trans none_)
    · intro countable
      refine ⟨fun path some_ other => (count_usages_iff wellFormed some_).mpr
        (countable.kept path some_ other fun positive => absurd positive searched), ?_⟩
      rw [none_]
      exact requests.mpr (countable.requests none_)

/-- The messages before the last as the reply has them. -/
theorem adaptAll_lead {lead : List Message} (wellFormed : ∀ message ∈ lead, message.WellFormed)
    (goesOn : ∀ message ∈ lead, message.goesOn = true) :
    ∃ next : Events, adaptAll {} (lead.flatMap Message.events) =
        some (.ok (next, (lead.head?.map Message.start).toList ++
          number 0 (lead.flatMap Message.parts))) ∧
      next.started = lead.head?.isSome ∧ next.next = visible (lead.flatMap Message.parts) ∧
      next.before = (lead.map Message.usage).foldl sum .null ∧
      next.searches = searchCount lead := by
  cases lead with
  | nil => exact ⟨{}, rfl, rfl, rfl, rfl, rfl⟩
  | cons first rest =>
    obtain ⟨middle, run, on, index, before, searches⟩ :=
      (wellFormed first List.mem_cons_self).adaptAll_goesOn {} (goesOn first List.mem_cons_self)
    obtain ⟨next, others, still, later, sums, counts⟩ := adaptAll_messages middle
      (fun other listed => wellFormed other (List.mem_cons_of_mem _ listed))
      (fun other listed => goesOn other (List.mem_cons_of_mem _ listed)) on
    refine ⟨next, ?_, still, ?_, ?_, ?_⟩
    · rw [List.flatMap_cons, adaptAll_append run others, List.flatMap_cons, number_append, index]
      rfl
    · rw [later, index, List.flatMap_cons]
      simp [visible]
    · rw [sums, before]
      rfl
    · rw [counts, searches, searchCount, searchCount, List.map_cons, List.sum_cons]
      exact congrArg (· + _) (Nat.zero_add _)

/-- A turn is one reply exactly when the process goes on after it or what it reports is
countable. -/
theorem oneReply_iff (messages : List Message) (turn : Turn messages) :
    OneReply messages ↔
      (∃ last, messages.getLast? = some last ∧ last.goesOn = true) ∨ Countable messages := by
  obtain ⟨lead, last, rfl⟩ := messages.eq_nil_or_concat.resolve_left turn.nonempty
  simp only [List.concat_eq_append] at turn ⊢
  have goesOn : ∀ message ∈ lead, message.goesOn = true := by
    simpa using turn.goesOn
  have wellFormed : ∀ message ∈ lead, message.WellFormed := fun message listed =>
    turn.wellFormed message (List.mem_append_left _ listed)
  have isLast : last.WellFormed := turn.wellFormed last (by simp)
  obtain ⟨next, run, started, index, before, searches⟩ := adaptAll_lead wellFormed goesOn
  have counted : searchCount (lead ++ [last]) = next.searches + last.searches := by
    rw [searches, searchCount, List.map_append, List.sum_append, searchCount]
    simp
  have shown : (lead.head?.map Message.start).toList ++ number 0 (lead.flatMap Message.parts) ++
      last.shown next.started next.next =
      (((lead ++ [last]).head?.map Message.start).toList ++
        number 0 ((lead ++ [last]).flatMap Message.parts)) := by
    rw [List.flatMap_append, number_append, Message.shown, started, index]
    cases lead with
    | nil => simp [number, visible]
    | cons first rest => simp
  obtain ⟨first, isFirst⟩ : ∃ first, (lead ++ [last]).head? = some first := by
    cases lead with
    | nil => exact ⟨last, rfl⟩
    | cons first rest => exact ⟨first, rfl⟩
  have isEnd : (lead ++ [last]).getLast? = some last := by simp
  rw [isFirst] at shown
  cases ends : last.goesOn with
  | true =>
    obtain ⟨after, others, -⟩ := isLast.adaptAll_goesOn next ends
    refine iff_of_true ⟨first, last, after,
      first.start :: number 0 ((lead ++ [last]).flatMap Message.parts), isFirst, isEnd, ?_, ?_⟩
      (.inl ⟨last, isEnd, ends⟩)
    · rw [List.flatMap_append, List.flatMap_singleton, adaptAll_append run others, shown]
      rfl
    · rw [if_pos ends]
  | false =>
    have others := isLast.adaptAll_ends next ends
    rw [before, ← counted] at others
    have whole : adaptAll {} ((lead ++ [last]).flatMap Message.events) = some (.ok ({},
        first.start :: number 0 ((lead ++ [last]).flatMap Message.parts) ++
          [last.delta.set "usage" (last.total ((lead.map Message.usage).foldl sum .null)
            (searchCount (lead ++ [last]))), last.stop])) := by
      rw [List.flatMap_append, List.flatMap_singleton, adaptAll_append run others,
        ← List.append_assoc, shown]
      rfl
    have notOn : ¬ ∃ final, (lead ++ [last]).getLast? = some final ∧ final.goesOn = true := by
      rintro ⟨final, isFinal, on⟩
      rw [isEnd, Option.some.injEq] at isFinal
      rw [← isFinal, ends] at on
      cases on
    rw [or_iff_right notOn, ← countsAll_iff turn.wellFormed goesOn]
    constructor
    · rintro ⟨start, final, events, out, -, isFinal, isRun, reply⟩
      rw [isEnd, Option.some.injEq] at isFinal
      subst isFinal
      rw [if_neg (by rw [ends]; simp)] at reply
      obtain ⟨-, usage, counts, rfl⟩ := reply
      rw [whole] at isRun
      simp only [Option.some.injEq, Except.ok.injEq, Prod.mk.injEq] at isRun
      have endings := (List.append_inj' isRun.2 rfl).2
      have deltas := List.head_eq_of_cons_eq endings
      have isObject : last.delta.IsObject := by
        have kind := isLast.delta
        cases deltaValue : last.delta with
        | object fields => trivial
        | _ =>
          rw [deltaValue] at kind
          cases kind
      have same : ∀ usage, (last.delta.set "usage" usage).get "usage" = some usage := fun usage => by
        rw [Value.get_set isObject, if_pos rfl]
      have usages := congrArg (Value.get · "usage") deltas
      simp only [same, Option.some.injEq] at usages
      rwa [usages]
    · intro counts
      refine ⟨first, last, {}, _, isFirst, isEnd, whole, ?_⟩
      rw [if_neg (by rw [ends]; simp)]
      exact ⟨rfl, _, counts, rfl⟩

/-- A message of one block with a usage at its start and 4 tokens of output. -/
def Sample.round (block usage : Value) : Message where
  start := .obj [("type", "message_start"), ("message", .obj [("usage", usage)])]
  parts := [.block {
    index := 0
    start := .obj [("type", "content_block_start"), ("index", .nat 0), ("content_block", block)]
    inner := []
    stop := .obj [("type", "content_block_stop"), ("index", .nat 0)] }]
  delta := .obj [("type", "message_delta"), ("usage", .obj [("output_tokens", .nat 4)])]
  stop := .obj [("type", "message_stop")]

/-- A call of the search of the process. -/
def Sample.search : Value := .obj [("type", "tool_use"), ("name", "WebSearch")]

/-- A text. -/
def Sample.text : Value := .obj [("type", "text"), ("text", "answer")]

/-- A search whose usage has read 5 tokens of the cache, and an answer whose usage is given. -/
def Sample.rounds (later : Value) : List Message :=
  [Sample.round Sample.search (.obj [("cache_read_input_tokens", .nat 5)]),
    Sample.round Sample.text (.obj [("cache_read_input_tokens", later)])]

/-- Such a message is well formed. -/
theorem Sample.round_wellFormed (block : Value) {value : Value} (plain : value.keyed = true) :
    (Sample.round block (.obj [("cache_read_input_tokens", value)])).WellFormed where
  start := rfl
  startUsage := .inr trivial
  startOrdered := Value.keysOrdered_obj [("cache_read_input_tokens", value)]
  startDistinct := by
    apply Value.distinct_of_keyed
    show (Value.object [("cache_read_input_tokens", value)]).keyed = true
    simp [Value.keyed, Value.keyedFields, plain]
  parts part listed := by
    rw [List.mem_singleton.mp listed]
    exact ⟨⟨rfl, rfl⟩, fun event held => absurd held List.not_mem_nil, ⟨rfl, rfl⟩⟩
  indices := by simp [Message.blocks, Sample.round, Part.block?]
  delta := rfl
  deltaDistinct := by
    apply Value.distinct_of_keyed
    show (Value.object [("output_tokens", .nat 4)]).keyed = true
    decide
  stop := rfl

/-- A search and an answer are a turn. -/
theorem Sample.rounds_turn {later : Value} (plain : later.keyed = true) :
    Turn (Sample.rounds later) where
  nonempty := by simp [Sample.rounds]
  wellFormed message listed := by
    rcases List.mem_cons.mp listed with rfl | listed
    · exact Sample.round_wellFormed _ rfl
    · rw [List.mem_singleton.mp listed]
      exact Sample.round_wellFormed _ plain
  goesOn message listed := by
    rw [List.mem_singleton.mp listed]
    decide

/-- What such a message reports are small numbers. -/
theorem Sample.reported_round {block : Value} {tokens : ℕ} (few : tokens ≤ 5) {key : String}
    {value : Value}
    (found : (Sample.round block (.obj [("cache_read_input_tokens", .nat tokens)])).reported key =
      some value) :
    key ≠ "server_tool_use" ∧ ∃ count ≤ 5, value = .nat count := by
  have fields : (Sample.round block (.obj [("cache_read_input_tokens", .nat tokens)])).reported key =
      ((if "output_tokens" = key then some (.nat 4) else none).or
        (if "cache_read_input_tokens" = key then some (.nat tokens) else none)) := rfl
  rw [fields] at found
  split at found
  · next isOutput =>
    cases found
    exact ⟨fun same => absurd (isOutput.trans same) (by decide), 4, by decide, rfl⟩
  · rw [Option.none_or] at found
    split at found
    · next isRead =>
      cases found
      exact ⟨fun same => absurd (isRead.trans same) (by decide), tokens, few, rfl⟩
    · cases found

/-- A counter of such a message is small, and there is none below a counter. -/
theorem Sample.count_round (block : Value) {tokens : ℕ} (few : tokens ≤ 5) (path : List String) :
    (Sample.round block (.obj [("cache_read_input_tokens", .nat tokens)])).count path ≤ 5 ∧
    ((∀ key, path ≠ [key]) ∨ path = ["server_tool_use"] →
      (Sample.round block (.obj [("cache_read_input_tokens", .nat tokens)])).count path = 0) := by
  cases path with
  | nil => exact ⟨Nat.zero_le _, fun _ => rfl⟩
  | cons key path =>
    rw [Message.count]
    cases found : (Sample.round block
        (.obj [("cache_read_input_tokens", .nat tokens)])).reported key with
    | none =>
      rw [Option.getD_none, Value.count_null]
      exact ⟨Nat.zero_le _, fun _ => rfl⟩
    | some value =>
      obtain ⟨other, count, small, rfl⟩ := Sample.reported_round few found
      cases path with
      | nil =>
        refine ⟨small, fun absent => ?_⟩
        rcases absent with long | tools
        · exact absurd rfl (long key)
        · exact absurd (List.head_eq_of_cons_eq tools) other
      | cons next path =>
        have nothing : (Value.nat count).count (next :: path) = 0 :=
          Search.count_number (.unsigned count) next path
        rw [Option.getD_some, nothing]
        exact ⟨Nat.zero_le _, fun _ => rfl⟩

/-- A search and an answer that has read 3 tokens of the cache are one reply. -/
theorem oneReply_sample : OneReply (Sample.rounds (.nat 3)) := by
  refine (oneReply_iff (Sample.rounds (.nat 3)) (Sample.rounds_turn rfl)).mpr (.inr ?_)
  have first := Sample.count_round Sample.search (Nat.le_refl 5)
  have second := Sample.count_round Sample.text (show 3 ≤ 5 by decide)
  refine ⟨fun path some_ other apart => ⟨?_, ?_⟩, fun _ path other tools => ?_, fun none_ => ?_⟩
  · rw [Sample.rounds, List.pairwise_pair]
    intro hidden
    refine (first path).2 (.inl ?_)
    rintro key rfl
    rw [Message.hides] at hidden
    split at hidden
    · next found =>
      obtain ⟨-, count, -, rfl⟩ := Sample.reported_round (by decide) found
      cases hidden
    · cases hidden
  · have few := (first path).1
    have fewer := (second path).1
    simp only [Sample.rounds, List.map_cons, List.map_nil, List.sum_cons, List.sum_nil]
    omega
  · have absent : (∀ key, path ≠ [key]) ∨ path = ["server_tool_use"] := by
      by_cases single : ∃ key, path = [key]
      · obtain ⟨key, rfl⟩ := single
        rw [List.head?_cons, Option.some.injEq] at tools
        exact .inr (by rw [tools])
      · exact .inl fun key same => single ⟨key, same⟩
    have none_ := (first path).2 absent
    have nothing := (second path).2 absent
    simp only [Sample.rounds, List.map_cons, List.map_nil, List.sum_cons, List.sum_nil]
    omega
  · cases none_

/-- The reply to a search that has read 5 tokens of the cache and an answer that reports null. -/
def Sample.forgetful : List Value :=
  [.obj [("type", "message_start"),
    ("message", .obj [("usage", .obj [("cache_read_input_tokens", .nat 5)])])],
   .obj [("type", "content_block_start"), ("index", .nat 0), ("content_block", Sample.text)],
   .obj [("type", "content_block_stop"), ("index", .nat 0)],
   .obj [("type", "message_delta"), ("usage", .obj [("cache_read_input_tokens", .null),
      ("output_tokens", .nat 8),
      ("server_tool_use", .obj [("web_search_requests", .nat 1)])])],
   .obj [("type", "message_stop")]]

/-- A counter that a later message reports as null is lost. -/
theorem turn_not_oneReply :
    Turn (Sample.rounds .null) ∧ ¬ OneReply (Sample.rounds .null) := by
  refine ⟨Sample.rounds_turn rfl, ?_⟩
  rintro ⟨first, last, events, out, isFirst, isLast, run, reply⟩
  have actual : adaptAll {} ((Sample.rounds .null).flatMap Message.events) =
      some (.ok ({}, Sample.forgetful)) := by
    decide +kernel
  rw [actual] at run
  cases isFirst
  cases isLast
  cases run
  rw [if_neg (by decide)] at reply
  obtain ⟨-, usage, counts, isOut⟩ := reply
  have deltas := congrArg (fun events => (events[3]?).bind (Value.get · "usage")) isOut
  have isUsage : usage = .obj [("cache_read_input_tokens", .null), ("output_tokens", .nat 8),
      ("server_tool_use", .obj [("web_search_requests", .nat 1)])] :=
    (Option.some.inj deltas).symm
  have lost := counts.1 ["cache_read_input_tokens"] (by decide) (by decide)
  rw [isUsage] at lost
  exact absurd lost (by decide)

end Aipass.Claude
