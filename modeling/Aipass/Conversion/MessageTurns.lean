import Aipass.Conversion.ToolNotices

/-!
# Turns of Anthropic requests

The messages of an Anthropic request come in turns if they can be taken apart into messages without
calls and results and into turns: a message with calls and behind it messages that say nothing of
their own, whose results answer exactly these calls and show images only at the end. Exactly then
a converted request keeps every call together with its results.
-/
namespace Aipass.Conversion

/-- The identifiers of the calls of a message. -/
def callIds (generatedIds : ℕ) (message : Value) : List Value :=
  (useIds generatedIds (blocksOf message)).1

/-- A message has a call. -/
def makesCalls (message : Value) : Bool :=
  (blocksOf message).any fun block => blockType block = "tool_use"

/-- A message says something of its own: a text, an image, or what an assistant without calls
thinks. -/
def speaks (message : Value) : Bool :=
  match message.get "content" with
  | some (.string _) => true
  | some (.array blocks) =>
    if messageRole message = "assistant" then
      ¬ makesCalls message ∧
        (blocks.any keepsPart ∨ blocks.any fun block => thoughtOf block ≠ "")
    else blocks.any keepsPart
  | _ => false

/-- The results of a message that are passed on: an assistant message that neither calls nor says
anything is dropped. -/
def passedResults (message : Value) : List Value :=
  if messageRole message = "assistant" ∧ ¬ makesCalls message ∧ ¬ speaks message then []
  else resultsOf (blocksOf message)

/-- The identifiers a message answers. -/
def answersOf (message : Value) : List Value :=
  (passedResults message).map fun result => result.field "tool_use_id"

/-- The results of a message show images. -/
def showsImages (message : Value) : Bool :=
  (passedResults message).any fun result => amResultImages result ≠ []

/-- The messages of a request come in turns. -/
inductive MessagesInTurns : ℕ → List Value → Prop
  | nil {generatedIds : ℕ} : MessagesInTurns generatedIds []
  /-- A message without calls and results; a text under the role of results counts as one. -/
  | alone {generatedIds : ℕ} {message : Value} {rest : List Value}
      (noCalls : makesCalls message = false) (noAnswers : answersOf message = [])
      (noTool : speaks message = true → messageRole message ≠ "tool")
      (later : MessagesInTurns generatedIds rest) : MessagesInTurns generatedIds (message :: rest)
  /-- A message with calls and the messages that answer them. -/
  | turn {generatedIds : ℕ} {message : Value} {group rest : List Value}
      (calls : makesCalls message = true)
      (noTool : speaks message = true → messageRole message ≠ "tool")
      (quiet : ∀ other ∈ group, speaks other = false ∧ makesCalls other = false)
      (exactly : ((message :: group).flatMap answersOf).Perm (callIds generatedIds message))
      (imagesLast : (message :: group).Pairwise fun other later =>
        showsImages other = true → answersOf later = [])
      (later : MessagesInTurns (useIds generatedIds (blocksOf message)).2 rest) :
      MessagesInTurns generatedIds (message :: group ++ rest)

/-- The notices of the results of a message. -/
def resultNotices (message : Value) : List (Notice (Option Value)) :=
  ((answersOf message).map some).map .answer ++ if showsImages message then [.other] else []

/-- The notices of a message before those of its results. -/
def ownNotices (generatedIds : ℕ) (message : Value) : List (Notice (Option Value)) :=
  (if speaks message then [ownNotice (messageRole message)] else []) ++
    callNotice (callIds generatedIds message)

/-- Blocks without calls have no identifiers and generate none. -/
theorem useIds_of_not {blocks : List Value}
    (noCalls : (blocks.any fun block => blockType block = "tool_use") = false)
    (generatedIds : ℕ) : useIds generatedIds blocks = ([], generatedIds) := by
  induction blocks with
  | nil => rfl
  | cons block rest ih =>
    rw [List.any_cons, Bool.or_eq_false_iff] at noCalls
    rw [useIds, if_neg (by simpa using noCalls.1), ih noCalls.2]

/-- Blocks have identifiers exactly when they have calls. -/
theorem useIds_eq_nil {generatedIds : ℕ} {blocks : List Value} :
    (useIds generatedIds blocks).1 = [] ↔
      (blocks.any fun block => blockType block = "tool_use") = false := by
  constructor
  · intro none_
    induction blocks with
    | nil => rfl
    | cons block rest ih =>
      by_cases use : blockType block = "tool_use"
      · rw [useIds, if_pos use] at none_
        cases none_
      · rw [useIds, if_neg use] at none_
        rw [List.any_cons, ih none_]
        simpa using use
  · intro noCalls
    rw [useIds_of_not noCalls]

/-- The notices of a message are its own and those of its results. -/
theorem amNotices_eq (generatedIds : ℕ) (message : Value) :
    amNotices generatedIds message = ownNotices generatedIds message ++ resultNotices message := by
  have listed : blocksOf message = ((message.get "content").bind Value.asArray).getD [] := rfl
  rw [amNotices, ownNotices, resultNotices, answersOf, showsImages, passedResults, callIds]
  cases content : message.get "content" with
  | none => simp [speaks, listed, content, callNotice, useIds, resultsOf]
  | some value =>
    cases value with
    | null | bool _ | number _ | object _ =>
      simp [speaks, listed, content, callNotice, useIds, resultsOf, Value.asArray]
    | string text => simp [speaks, listed, content, callNotice, useIds, resultsOf, Value.asArray]
    | array blocks =>
      have blocks_ : blocksOf message = blocks := by simp [listed, content]
      have noCalls : makesCalls message = false ↔ (useIds generatedIds blocks).1 = [] := by
        rw [makesCalls, blocks_, useIds_eq_nil]
      simp only [speaks, content, blockNotices, blocks_, ne_eq]
      revert noCalls
      generalize messageRole message = role
      generalize blocks.any keepsPart = keeps
      generalize (blocks.any fun block => decide ¬thoughtOf block = "") = thinks
      generalize (useIds generatedIds blocks).1 = ids
      generalize makesCalls message = calls
      intro noCalls
      by_cases assistant : role = "assistant"
      · cases calls with
        | true =>
          have some_ : ids ≠ [] := fun none_ => Bool.noConfusion (noCalls.mpr none_)
          simp [assistant, some_, Function.comp_def]
        | false =>
          have none_ := noCalls.mp rfl
          cases keeps <;> cases thinks <;>
            simp [assistant, none_, callNotice, ownNotice, Function.comp_def]
      · simp [assistant, Function.comp_def]

/-- A message without calls makes no identifiers. -/
theorem useIds_blocksOf {message : Value} (noCalls : makesCalls message = false)
    (generatedIds : ℕ) : useIds generatedIds (blocksOf message) = ([], generatedIds) :=
  useIds_of_not noCalls generatedIds

/-- The notice of a message's own words may stand where nothing waits. -/
theorem settle_own {message : Value} (noTool : speaks message = true → messageRole message ≠ "tool") :
    settleAll (some []) (if speaks message then [ownNotice (messageRole message)] else []) =
      some [] := by
  by_cases loud : speaks message = true
  · rw [if_pos loud, settleAll_cons, ownNotice, if_neg (noTool loud)]
    rfl
  · rw [if_neg loud]
    rfl

/-- What a message says of its own and the calls it makes leave its calls waiting. -/
theorem settle_ownNotices {generatedIds : ℕ} {message : Value}
    (noTool : speaks message = true → messageRole message ≠ "tool") :
    settleAll (some []) (ownNotices generatedIds message) =
      some ((callIds generatedIds message).map some) := by
  rw [ownNotices, settleAll_append, settle_own noTool, callNotice]
  split
  · rename_i none_
    rw [none_]
    rfl
  · rfl

/-- The images of results are shown by results. -/
theorem answers_of_showsImages {message : Value} (shown : showsImages message = true) :
    answersOf message ≠ [] := by
  intro none_
  rw [showsImages, List.map_eq_nil_iff.mp none_] at shown
  cases shown

/-- A message that says nothing and makes no calls has the notices of its results. -/
theorem ownNotices_quiet {generatedIds : ℕ} {message : Value}
    (quiet : speaks message = false ∧ makesCalls message = false) :
    ownNotices generatedIds message = [] := by
  rw [ownNotices, callIds, useIds_blocksOf quiet.2, quiet.1]
  rfl

/-- Results that answer exactly what waits, with images at the end, leave nothing waiting. -/
theorem settle_results {group : List Value} {waiting : List (Option Value)}
    (exactly : ((group.flatMap answersOf).map some).Perm waiting)
    (imagesLast : group.Pairwise fun other later =>
      showsImages other = true → answersOf later = []) :
    settleAll (some waiting) (group.flatMap resultNotices) = some [] := by
  induction group generalizing waiting with
  | nil =>
    rw [List.nil_perm.mp exactly]
    rfl
  | cons message group ih =>
    rw [List.flatMap_cons, List.map_append] at exactly
    obtain ⟨left, settled, rest⟩ := settleAll_answers exactly
    rw [List.pairwise_cons] at imagesLast
    rw [List.flatMap_cons, resultNotices, settleAll_append, settleAll_append, settled]
    by_cases shown : showsImages message = true
    · have idle : group.flatMap answersOf = [] :=
        List.flatMap_eq_nil_iff.mpr fun later inside => imagesLast.1 later inside shown
      rw [idle] at rest
      rw [if_pos shown, List.nil_perm.mp rest]
      refine ih ?_ imagesLast.2
      rw [idle]
      exact .nil
    · rw [if_neg shown]
      exact ih rest imagesLast.2

/-- The notices of messages that say nothing and make no calls. -/
theorem amConversation_quiet {generatedIds : ℕ} {group rest : List Value}
    (quiet : ∀ other ∈ group, speaks other = false ∧ makesCalls other = false) :
    amConversation generatedIds (group ++ rest) =
      group.flatMap resultNotices ++ amConversation generatedIds rest := by
  induction group with
  | nil => rfl
  | cons message group ih =>
    have first := quiet message (List.mem_cons_self ..)
    rw [List.cons_append, amConversation, useIds_blocksOf first.2, amNotices_eq,
      ownNotices_quiet first, ih fun other inside => quiet other (List.mem_cons_of_mem _ inside),
      List.flatMap_cons, List.nil_append, List.append_assoc]

/-- Messages that come in turns leave nothing waiting. -/
theorem settled_of_turns {generatedIds : ℕ} {messages : List Value}
    (inTurns : MessagesInTurns generatedIds messages) :
    settleAll (some []) (amConversation generatedIds messages) = some [] := by
  induction inTurns with
  | nil => rfl
  | @alone generatedIds message rest noCalls noAnswers noTool later ih =>
    have calm : callIds generatedIds message = [] := by
      rw [callIds, useIds_blocksOf noCalls]
    have unseen : ¬ showsImages message = true := fun shown =>
      answers_of_showsImages shown noAnswers
    rw [amConversation, amNotices_eq, settleAll_append, settleAll_append,
      settle_ownNotices noTool, calm, resultNotices, noAnswers, if_neg unseen,
      useIds_blocksOf noCalls]
    exact ih
  | @turn generatedIds message group rest calls noTool quiet exactly imagesLast later ih =>
    have answered := settle_results (exactly.map some) imagesLast
    rw [List.flatMap_cons, settleAll_append] at answered
    rw [List.cons_append, amConversation, amConversation_quiet quiet, amNotices_eq,
      settleAll_append, settleAll_append, settleAll_append, settle_ownNotices noTool, answered]
    exact ih

/-- The results of a message answer some of what waits, and show images only if nothing waits
behind them. -/
theorem results_of_settled {message : Value} {waiting : List (Option Value)}
    {more : List (Notice (Option Value))}
    (settled : settleAll (some waiting) (resultNotices message ++ more) = some []) :
    ∃ left, ((answersOf message).map some ++ left).Perm waiting ∧
      (showsImages message = true → left = []) ∧ settleAll (some left) more = some [] := by
  rw [resultNotices, List.append_assoc] at settled
  obtain ⟨left, exactly, later⟩ := answers_of_settleAll settled
  by_cases shown : showsImages message = true
  · have idle : left = [] := by
      by_contra some_
      rw [if_pos shown, List.singleton_append, settleAll_cons, settle_waiting some_ (by simp),
        settleAll_none] at later
      cases later
    subst idle
    rw [if_pos shown] at later
    exact ⟨[], exactly, fun _ => rfl, later⟩
  · rw [if_neg shown] at later
    exact ⟨left, exactly, fun shown' => absurd shown' shown, later⟩

/-- Where calls wait, messages answer them before anything else is said. -/
theorem group_of_settled {generatedIds : ℕ} {messages : List Value}
    {waiting : List (Option Value)}
    (settled : settleAll (some waiting) (amConversation generatedIds messages) = some [])
    (known : ∀ id ∈ waiting, id ≠ none) :
    ∃ group rest, messages = group ++ rest ∧
      (∀ other ∈ group, speaks other = false ∧ makesCalls other = false) ∧
      ((group.flatMap answersOf).map some).Perm waiting ∧
      (group.Pairwise fun other later => showsImages other = true → answersOf later = []) ∧
      settleAll (some []) (amConversation generatedIds rest) = some [] := by
  induction messages generalizing waiting with
  | nil =>
    cases settled
    exact ⟨[], [], rfl, by simp, .nil, .nil, rfl⟩
  | cons message messages ih =>
    by_cases idle : waiting = []
    · subst idle
      exact ⟨[], message :: messages, rfl, by simp, .nil, .nil, settled⟩
    · rw [amConversation, amNotices_eq, ownNotices, settleAll_append, settleAll_append,
        settleAll_append] at settled
      have still : speaks message = false := by
        by_contra loud
        rw [if_pos (by simpa using loud), settleAll_cons, settle_waiting idle, settleAll_none,
          settleAll_none, settleAll_none, settleAll_none] at settled
        · cases settled
        · intro id answered inside
          rw [ownNotice] at answered
          split at answered
          · cases answered
            exact known none inside rfl
          · cases answered
      rw [still] at settled
      have noCalls : makesCalls message = false := by
        by_contra loud
        have some_ : callIds generatedIds message ≠ [] := fun none_ =>
          loud (useIds_eq_nil.mp none_)
        rw [callNotice, if_neg some_, if_neg (by decide), settleAll_nil, settleAll_cons,
          settle_waiting idle (by simp), settleAll_none, settleAll_none, settleAll_none] at settled
        cases settled
      have calm : callIds generatedIds message = [] := by
        rw [callIds, useIds_blocksOf noCalls]
      rw [calm, useIds_blocksOf noCalls, callNotice, if_pos rfl, if_neg (by decide), settleAll_nil,
        settleAll_nil, ← settleAll_append] at settled
      obtain ⟨left, exactly, last, later⟩ := results_of_settled settled
      have known' : ∀ id ∈ left, id ≠ none := fun id inside =>
        known id (exactly.subset (List.mem_append_right _ inside))
      obtain ⟨group, rest, rfl, quiet, answered, imagesLast, finished⟩ := ih later known'
      refine ⟨message :: group, rest, rfl, ?_, ?_, ?_, finished⟩
      · intro other inside
        rcases List.mem_cons.mp inside with rfl | inside
        · exact ⟨still, noCalls⟩
        · exact quiet other inside
      · rw [List.flatMap_cons, List.map_append]
        exact (answered.append_left _).trans exactly
      · refine List.pairwise_cons.mpr ⟨fun later' inside shown => ?_, imagesLast⟩
        rw [last shown, List.perm_nil, List.map_eq_nil_iff, List.flatMap_eq_nil_iff] at answered
        exact answered later' inside

/-- What a message with nothing waiting before it leaves waiting. -/
theorem first_of_settled {generatedIds : ℕ} {message : Value} {rest : List Value}
    (settled : settleAll (some []) (amConversation generatedIds (message :: rest)) = some []) :
    (speaks message = true → messageRole message ≠ "tool") ∧
      settleAll (some ((callIds generatedIds message).map some)) (resultNotices message ++
        amConversation (useIds generatedIds (blocksOf message)).2 rest) = some [] := by
  rw [amConversation, amNotices_eq, List.append_assoc, settleAll_append] at settled
  have noTool : speaks message = true → messageRole message ≠ "tool" := by
    intro loud tool
    rw [ownNotices, if_pos loud, List.singleton_append, settleAll_cons, ownNotice, if_pos tool,
      settle, if_neg List.not_mem_nil, settleAll_none, settleAll_none] at settled
    cases settled
  rw [settle_ownNotices noTool] at settled
  exact ⟨noTool, settled⟩

/-- Messages that leave nothing waiting come in turns. -/
theorem turns_of_settled {generatedIds : ℕ} {messages : List Value}
    (settled : settleAll (some []) (amConversation generatedIds messages) = some []) :
    MessagesInTurns generatedIds messages := by
  induction length : messages.length using Nat.strongRecOn generalizing generatedIds messages with
  | ind count ih =>
    cases messages with
    | nil => exact .nil
    | cons message messages =>
      obtain ⟨noTool, later⟩ := first_of_settled settled
      rw [List.length_cons] at length
      by_cases calls : makesCalls message = true
      · obtain ⟨left, exactly, last, later⟩ := results_of_settled later
        have known : ∀ id ∈ left, id ≠ none := by
          intro id inside
          obtain ⟨own, -, rfl⟩ := List.mem_map.mp (exactly.subset (List.mem_append_right _ inside))
          exact Option.some_ne_none own
        obtain ⟨group, rest, rfl, quiet, answered, imagesLast, finished⟩ :=
          group_of_settled later known
        refine .turn calls noTool quiet ?_ ?_ (ih rest.length ?_ finished rfl)
        · refine (List.map_perm_map_iff (Option.some_injective _)).mp ?_
          rw [List.flatMap_cons, List.map_append]
          exact (answered.append_left _).trans exactly
        · refine List.pairwise_cons.mpr ⟨fun other inside shown => ?_, imagesLast⟩
          rw [last shown, List.perm_nil, List.map_eq_nil_iff, List.flatMap_eq_nil_iff] at answered
          exact answered other inside
        · rw [List.length_append] at length
          omega
      · rw [Bool.not_eq_true] at calls
        rw [callIds, useIds_blocksOf calls] at later
        obtain ⟨left, exactly, -, later⟩ := results_of_settled later
        have both := List.append_eq_nil_iff.mp (List.perm_nil.mp exactly)
        rw [both.2] at later
        exact .alone calls (List.map_eq_nil_iff.mp both.1) noTool
          (ih messages.length (by omega) later rfl)

/-- The messages of a request come in turns exactly when they leave nothing waiting. -/
theorem settled_iff_turns {generatedIds : ℕ} {messages : List Value} :
    settleAll (some []) (amConversation generatedIds messages) = some [] ↔
      MessagesInTurns generatedIds messages :=
  ⟨turns_of_settled, settled_of_turns⟩

end Aipass.Conversion
