import Aipass.Search.Restoring

/-!
# The tools of a search

The tool that stands for the search has a name that no other tool has, wherever the names of tools
are looked up, and the tools of the caller are sent before it. The calls in a reply are those of the
search tool or of others. They are read by their type and in the first choice only, so a reply can
have calls that are not looked at.
-/
namespace Aipass.Search

open Conversion (ProxyProtocol AM CC RS)

variable {outside : Outside} {protocol : ProxyProtocol}

/-! ## The name -/

/-- The names that are tried, in this order. -/
def candidate : ℕ → String
  | 0 => "aipass_web_search"
  | tries + 1 => "aipass_" ++ candidate tries

/-- Whether a tool has a name, where the names of tools are looked up. -/
def taken (tools : List Value) (name : String) : Bool := tools.any fun tool => named tool name

/-- Whether a custom tool of a Chat request has a name. -/
def customNamed (tool : Value) (name : String) : Bool := reads (tool.field "custom") "name" name

/-- The names grow. -/
theorem length_candidate (tries : ℕ) : (candidate tries).length = 17 + 7 * tries := by
  induction tries with
  | zero => rfl
  | succ tries ih =>
    rw [candidate, String.length_append, ih]
    have lead : "aipass_".length = 7 := rfl
    omega

/-- No name is tried twice. -/
theorem candidate_injective : Function.Injective candidate := by
  intro left right same
  have lengths := congrArg String.length same
  rw [length_candidate, length_candidate] at lengths
  omega

/-- The names that tools have, where they are looked up. -/
def namesOf (tools : List Value) : List String :=
  tools.flatMap fun tool =>
    (tool.field "name").asStr.toList ++ ((tool.field "function").field "name").asStr.toList

/-- A tool has two names at most. -/
theorem length_namesOf (tools : List Value) : (namesOf tools).length ≤ 2 * tools.length := by
  induction tools with
  | nil => exact le_rfl
  | cons tool rest ih =>
    have few (name : Option String) : name.toList.length ≤ 1 := by cases name <;> simp
    have first := few (tool.field "name").asStr
    have second := few ((tool.field "function").field "name").asStr
    rw [namesOf, List.flatMap_cons, List.length_append, List.length_append, List.length_cons]
    rw [namesOf] at ih
    omega

/-- A name that is taken is one of them. -/
theorem mem_namesOf {tools : List Value} {name : String} (isTaken : taken tools name = true) :
    name ∈ namesOf tools := by
  obtain ⟨tool, listed, isNamed⟩ := List.any_eq_true.mp isTaken
  refine List.mem_flatMap.mpr ⟨tool, listed, List.mem_append.mpr ?_⟩
  simp only [named, reads, Bool.or_eq_true, decide_eq_true_eq] at isNamed
  exact isNamed.imp Option.mem_toList.mpr Option.mem_toList.mpr

/-- The search for a name stops at the first that is free, or when it may try no more. -/
theorem freeName_from (tools : List Value) (fuel start : ℕ) :
    ∃ tries ≤ fuel, freeName tools fuel (candidate start) = candidate (start + tries) ∧
      (∀ earlier < tries, taken tools (candidate (start + earlier)) = true) ∧
      (tries < fuel → taken tools (candidate (start + tries)) = false) := by
  induction fuel generalizing start with
  | zero =>
    exact ⟨0, le_rfl, rfl, fun _ none_ => absurd none_ (Nat.not_lt_zero _),
      fun none_ => absurd none_ (Nat.not_lt_zero _)⟩
  | succ fuel ih =>
    cases isTaken : taken tools (candidate start) with
    | false =>
      refine ⟨0, Nat.zero_le _, ?_, fun _ none_ => absurd none_ (Nat.not_lt_zero _),
        fun _ => isTaken⟩
      exact if_neg (Bool.eq_false_iff.mp isTaken)
    | true =>
      obtain ⟨tries, within, found, before, free⟩ := ih (start + 1)
      have next (count : ℕ) : start + 1 + count = start + (count + 1) := by omega
      refine ⟨tries + 1, Nat.succ_le_succ within, ?_, ?_, ?_⟩
      · rw [← next, ← found]
        exact if_pos isTaken
      · intro earlier isEarlier
        cases earlier with
        | zero => exact isTaken
        | succ earlier => exact next earlier ▸ before earlier (Nat.lt_of_succ_lt_succ isEarlier)
      · intro fewer
        exact next tries ▸ free (Nat.lt_of_succ_lt_succ fewer)

/-- The name of the search tool is the first that is free. -/
theorem freeName_spec (tools : List Value) :
    ∃ tries, freeName tools (2 * tools.length) "aipass_web_search" = candidate tries ∧
      (∀ earlier < tries, taken tools (candidate earlier) = true) ∧
      taken tools (candidate tries) = false := by
  obtain ⟨tries, within, found, before, free⟩ := freeName_from tools (2 * tools.length) 0
  simp only [Nat.zero_add] at found before free
  refine ⟨tries, found, before, ?_⟩
  by_contra isTaken
  have isLast : tries = 2 * tools.length :=
    le_antisymm within (not_lt.mp fun fewer => isTaken (free fewer))
  -- Then more names are taken than the tools have.
  have all : ∀ count < tries + 1, candidate count ∈ namesOf tools := by
    intro count fewer
    obtain earlier | rfl := Nat.lt_succ_iff_lt_or_eq.mp fewer
    · exact mem_namesOf (before count earlier)
    · exact mem_namesOf (Bool.not_eq_false _ ▸ isTaken)
  have distinct : ((List.range (tries + 1)).map candidate).Nodup :=
    List.nodup_range.map candidate_injective
  have inside : (List.range (tries + 1)).map candidate ⊆ namesOf tools := by
    intro name listed
    obtain ⟨count, isCount, rfl⟩ := List.mem_map.mp listed
    exact all count (List.mem_range.mp isCount)
  have fits := (List.subperm_of_subset distinct inside).length_le
  have few := length_namesOf tools
  rw [List.length_map, List.length_range] at fits
  omega

/-! ## The tools that are sent -/

/-- The tools of a request that are its own. -/
def callerTools (protocol : ProxyProtocol) (body : Value) : List Value :=
  (toolsOf body).filter fun tool => !builtin protocol tool

/-- The tools of a request are in one field. -/
theorem toolsOf_congr {left right : Value} (same : left.get "tools" = right.get "tools") :
    toolsOf left = toolsOf right := by
  simp only [toolsOf, Value.field, same]

/-- Another field is written. -/
theorem toolsOf_set {body : Value} {key : String} (other : key ≠ "tools") (value : Value) :
    toolsOf (body.set key value) = toolsOf body := by
  refine toolsOf_congr ?_
  cases body with
  | object fields => exact (Value.get_set (by trivial) ..).trans (if_neg other)
  | null => exact if_neg other
  | _ => rfl

/-- The tools are written. -/
theorem toolsOf_written {body : Value} (isObject : body.IsObject) (tools : List Value) :
    toolsOf (body.set "tools" (.array tools)) = tools := by
  simp only [toolsOf, Value.field, Value.get_set isObject, if_true, Option.getD_some]
  rfl

/-- The search tool has its name. -/
theorem named_searchTool (protocol : ProxyProtocol) (name : String) :
    named (searchTool protocol name) name = true := by
  cases protocol <;>
    simp [named, reads, searchTool, Value.field, Value.get_obj_cons, Value.asStr]

/-- A search may be used up to six times. -/
theorem maxUsesOf_spec {declaration : Value} {uses : ℕ}
    (isRead : maxUsesOf declaration = .ok uses) : 1 ≤ uses ∧ uses ≤ 6 := by
  unfold maxUsesOf at isRead
  split at isRead
  · rw [okOr_eq_ok] at isRead
    obtain ⟨-, within⟩ := Option.filter_eq_some_iff.mp isRead
    simp only [Bool.and_eq_true, decide_eq_true_eq] at within
    exact ⟨within.1, within.2⟩
  · cases isRead
    exact ⟨by decide, le_rfl⟩

/-- The plan of a request has the first free name and allows some uses. -/
theorem read_spec {body : Value} {plan : Plan} (isRead : Plan.read protocol body = .ok plan) :
    plan.name = freeName (toolsOf body) (2 * (toolsOf body).length) "aipass_web_search" ∧
      1 ≤ plan.maxUses ∧ plan.maxUses ≤ 6 := by
  unfold Plan.read at isRead
  simp only [throw_eq_error, error_bind, ite_error_eq_ok, bind_eq_ok] at isRead
  obtain ⟨-, -, -, -, -, -, uses, isUses, allowed, -, blocked, -, -, -, made⟩ := isRead
  cases made
  exact ⟨rfl, maxUsesOf_spec isUses⟩

/-- A request that is prepared has its own tools, and then the search tool. -/
theorem prepare_tools {body next : Value} {plan : Plan}
    (prepared : Plan.prepare protocol body = .ok (plan, next)) :
    toolsOf next = callerTools protocol body ++
        (if plan.enabled then [searchTool protocol plan.name] else []) ∧
      plan.name = freeName (toolsOf body) (2 * (toolsOf body).length) "aipass_web_search" ∧
      1 ≤ plan.maxUses ∧ plan.maxUses ≤ 6 := by
  simp only [Plan.prepare, bind_eq_ok, okOr_eq_ok, pure, Except.pure, Except.ok.injEq,
    Prod.mk.injEq] at prepared
  obtain ⟨made, isRead, fields, isObject, rfl, rfl⟩ := prepared
  have object : body.IsObject := by
    cases body with
    | object fields => trivial
    | _ => cases isObject
  have removed := Value.isObject_remove object "web_search_options"
  refine ⟨?_, read_spec isRead⟩
  unfold Plan.place
  simp only
  split
  · rw [toolsOf_written (choose_keeps protocol removed _ _).1]
    rfl
  · rw [toolsOf_written removed, List.append_nil]
    rfl

/-- A round leaves the tools. -/
theorem toolsOf_append {body response next : Value} {results : List (String × Value)}
    (appended : append protocol outside body response results = .ok next) :
    next.IsObject ∧ toolsOf next = toolsOf body := by
  simp only [append, bind_eq_ok, okOr_eq_ok, pure, Except.pure, Except.ok.injEq] at appended
  obtain ⟨held, found, added, -, rfl⟩ := appended
  have object := isObject_of_messages found
  have written := Value.isObject_set object (field protocol) (.array (held ++ added))
  have other : field protocol ≠ "tools" := Ne.symm (ne_field (by decide) (by decide))
  refine ⟨Value.isObject_set written _ _, ?_⟩
  rw [toolsOf_set (by decide), toolsOf_set other]

/-- The search tool is taken out of the tools, and every other that has its name. -/
theorem toolsOf_dropTool {payload : Value} (isObject : payload.IsObject) (name : String) :
    toolsOf (dropTool payload name) = (toolsOf payload).filter fun tool => !named tool name := by
  unfold dropTool
  cases held : (payload.field "tools").asArray with
  | none =>
    have none_ : toolsOf payload = [] := by rw [toolsOf, held]; rfl
    rw [none_]
    rfl
  | some tools =>
    have some_ : toolsOf payload = tools := by rw [toolsOf, held]; rfl
    rw [some_]
    exact toolsOf_written isObject _

/-- Where no tool of the caller has the name, only the search tool is taken out. -/
theorem filter_callerTools {body : Value} {name : String}
    (free : taken (toolsOf body) name = false) :
    (callerTools protocol body).filter (fun tool => !named tool name) =
      callerTools protocol body := by
  refine List.filter_eq_self.mpr fun tool listed => ?_
  have unnamed := List.any_eq_false.mp free tool (List.mem_filter.mp listed).1
  simpa using unnamed

/-! ## Calls -/

/-- The items of a reply among which calls are looked for. -/
def itemsOf (protocol : ProxyProtocol) (response : Value) : List Value :=
  (match protocol with
    | AM => response.field "content"
    | CC => (choiceMessage response).field "tool_calls"
    | RS => response.field "output").asArray.getD []

/-- The types of calls that are looked for. -/
def callTyped (item : Value) : Bool :=
  (item.field "type").asStr.any fun kind =>
    ["tool_use", "function", "function_call", "custom_tool_call"].contains kind

/-- The calls that are looked at. -/
def lookedAt (protocol : ProxyProtocol) (response : Value) : List Value :=
  (itemsOf protocol response).filter callTyped

/-- Whether an item of a reply is a call of a tool: of a tool use or, without a type, of something
with a name; in a response also anything else that is to be answered; in a Chat completion every
tool call. -/
def isCall (protocol : ProxyProtocol) (item : Value) : Bool :=
  match protocol with
  | AM => reads item "type" "tool_use" || (item.get "type").isNone && (item.get "name").isSome
  | CC => true
  | RS => reads item "type" "function_call" || reads item "type" "custom_tool_call" ||
      (item.get "call_id").isSome || (item.get "type").isNone && (item.get "name").isSome

/-- The calls of tools in a reply. -/
def callItems (protocol : ProxyProtocol) (response : Value) : List Value :=
  match protocol with
  | CC => (response.field "choices").asArray.getD [] |>.flatMap fun choice =>
      ((choice.field "message").field "tool_calls").asArray.getD []
  | AM => (itemsOf AM response).filter (isCall AM)
  | RS => (itemsOf RS response).filter (isCall RS)

/-- Whether a call is of the tool with a name. -/
def callsFor (protocol : ProxyProtocol) (name : String) (item : Value) : Bool :=
  match protocol with
  | CC =>
    if reads item "type" "custom" then reads (item.field "custom") "name" name
    else reads (item.field "function") "name" name
  | _ => reads item "name" name

/-- The identifier of a call. -/
def callId (protocol : ProxyProtocol) (item : Value) : Option String :=
  (if protocol = RS then item.field "call_id" else item.field "id").asStr

/-- A typed call is of the search tool if it is read as one. -/
theorem callsFor_eq {item : Value} (typed : callTyped item = true) (name : String) :
    callsFor protocol name item =
      reads (if protocol = CC then item.field "function" else item) "name" name := by
  cases protocol with
  | openAiChatCompletions =>
    have notCustom : reads item "type" "custom" = false := by
      unfold callTyped at typed
      unfold reads
      cases kind : (item.field "type").asStr with
      | none => rfl
      | some text =>
        rw [kind] at typed
        refine decide_eq_false fun same => ?_
        cases same
        exact absurd typed (by decide)
    simp only [callsFor, notCustom, Bool.false_eq_true, if_false, if_true]
  | _ => rfl

/-- The loop over the items collects the calls of the search tool in order, and notes whether there
were others. -/
theorem callsFrom_spec {name : String} {items : List Value} {own : List (String × String)}
    {others : Bool} {result : List (String × String) × Bool}
    (went : callsFrom protocol outside name items own others = .ok result) :
    ∃ added, result.1 = own ++ added ∧
      List.Forall₂ (fun item call => callId protocol item = some call.1)
        ((items.filter callTyped).filter (callsFor protocol name)) added ∧
      result.2 = (others || (items.filter callTyped).any fun item => !callsFor protocol name item) := by
  induction items generalizing own others with
  | nil =>
    cases went
    exact ⟨[], (List.append_nil _).symm, .nil, (Bool.or_false _).symm⟩
  | cons item items ih =>
    unfold callsFrom at went
    split at went
    · rename_i untyped
      have isUntyped : callTyped item = false := by simpa [callTyped] using untyped
      rw [List.filter_cons_of_neg (by rw [isUntyped]; exact Bool.false_ne_true)]
      exact ih went
    · rename_i typed
      have isTyped : callTyped item = true := by simpa [callTyped] using typed
      rw [List.filter_cons_of_pos isTyped]
      have same : callsFor protocol name item =
          reads (if protocol = CC then item.field "function" else item) "name" name :=
        callsFor_eq isTyped name
      dsimp only at went
      rw [← same] at went
      cases isOwn : callsFor protocol name item with
      | false =>
        rw [isOwn] at went
        obtain ⟨added, collected, pairs, noted⟩ := ih went
        refine ⟨added, collected, ?_, ?_⟩
        · rw [List.filter_cons_of_neg (by rw [isOwn]; exact Bool.false_ne_true)]
          exact pairs
        · rw [noted, List.any_cons, isOwn]
          cases others <;> rfl
      | true =>
        rw [isOwn, Bool.not_true, if_neg Bool.false_ne_true] at went
        obtain ⟨query, id, isId, went⟩ : ∃ query id, callId protocol item = some id ∧
            callsFrom protocol outside name items (own ++ [(id, query)]) others = .ok result := by
          split at went
          · simp only [bind_eq_ok, okOr_eq_ok] at went
            obtain ⟨arguments, -, query, -, id, isId, went⟩ := went
            exact ⟨query, id, isId, went⟩
          · simp only [bind_eq_ok, okOr_eq_ok] at went
            obtain ⟨text, -, arguments, -, query, -, id, isId, went⟩ := went
            exact ⟨query, id, isId, went⟩
        obtain ⟨added, collected, pairs, noted⟩ := ih went
        refine ⟨(id, query) :: added, by rw [collected, List.append_assoc]; rfl, ?_, ?_⟩
        · rw [List.filter_cons_of_pos isOwn]
          exact .cons isId pairs
        · rw [noted, List.any_cons, isOwn]
          rfl

/-- What is collected from a reply: a call for each that is looked at, if all of these are of the
search tool; otherwise none, if none is. -/
theorem calls_spec {response : Value} {name : String} {called : List (String × String)}
    (collected : calls protocol outside response name = .ok called) :
    List.Forall₂ (fun item call => callId protocol item = some call.1)
        ((lookedAt protocol response).filter (callsFor protocol name)) called ∧
      (called ≠ [] → ∀ item ∈ lookedAt protocol response, callsFor protocol name item = true) := by
  unfold calls at collected
  simp only [bind_eq_ok, throw_eq_error, error_bind, ite_error_eq_ok] at collected
  obtain ⟨⟨own, others⟩, went, unmixed, made⟩ := collected
  obtain ⟨added, isOwn, pairs, noted⟩ := callsFrom_spec went
  cases made
  rw [List.nil_append] at isOwn
  cases isOwn
  refine ⟨pairs, fun some_ item inside => ?_⟩
  by_contra isOther
  have noOthers : others = false := by
    cases isNoted : others with
    | false => rfl
    | true =>
      rw [isNoted] at unmixed
      exact absurd (by simpa using some_) unmixed
  dsimp only at noted
  rw [noOthers, Bool.false_or] at noted
  have none_ := List.any_eq_false.mp noted.symm item inside
  exact none_ (by simpa using isOther)

/-! ## Replies -/

/-- The calls in a reply can be told: each is looked at, or it is of another tool, in a reply in
which no call of the search tool is looked at. -/
def Told (protocol : ProxyProtocol) (name : String) (response : Value) : Prop :=
  ∀ item ∈ callItems protocol response, item ∈ lookedAt protocol response ∨
    callsFor protocol name item = false ∧
      ∀ looked ∈ lookedAt protocol response, callsFor protocol name looked = false

instance (name : String) (response : Value) : Decidable (Told protocol name response) :=
  inferInstanceAs (Decidable (∀ item ∈ callItems protocol response, _))

variable {name : String} {response : Value} {called : List (String × String)}

/-- A reply without calls of the search tool that are looked at has none. -/
theorem Told.none (told : Told protocol name response)
    (collected : calls protocol outside response name = .ok []) :
    ∀ item ∈ callItems protocol response, callsFor protocol name item = false := by
  intro item listed
  obtain looked | ⟨other, -⟩ := told item listed
  · obtain ⟨pairs, -⟩ := calls_spec collected
    rw [List.forall₂_nil_right_iff] at pairs
    have unread := List.filter_eq_nil_iff.mp pairs item looked
    exact Bool.eq_false_iff.mpr unread
  · exact other

/-- A reply with calls of the search tool has no others. -/
theorem Told.all (told : Told protocol name response)
    (collected : calls protocol outside response name = .ok called) (some_ : called ≠ []) :
    ∀ item ∈ callItems protocol response, callsFor protocol name item = true := by
  intro item listed
  obtain ⟨pairs, all⟩ := calls_spec collected
  obtain looked | ⟨-, others⟩ := told item listed
  · exact all some_ item looked
  · have none_ : (lookedAt protocol response).filter (callsFor protocol name) = [] :=
      List.filter_eq_nil_iff.mpr fun looked inside =>
        Bool.eq_false_iff.mp (others looked inside)
    rw [none_, List.forall₂_nil_left_iff] at pairs
    exact absurd pairs some_

end Aipass.Search
