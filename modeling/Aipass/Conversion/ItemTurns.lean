import Aipass.Conversion.ItemNotices

/-!
# Turns of Responses items

The items of a Responses request come in turns if they can be taken apart into messages and
reasoning and into turns: calls with nothing but empty reasoning between them, and behind them
their results, among which reasoning may stand as long as no result with images precedes it.
Exactly then a converted request keeps every call together with its results.
-/
namespace Aipass.Conversion

open OpenAi

/-- An item is a call. -/
def IsCall (item : Value) : Prop := itemKind item ∈ ["function_call", "custom_tool_call"]

/-- An item is a result. -/
def IsOutput (item : Value) : Prop :=
  itemKind item ∈ ["function_call_output", "custom_tool_call_output"]

/-- An item is reasoning. -/
def IsReasoning (item : Value) : Prop := itemKind item = "reasoning"

instance (item : Value) : Decidable (IsCall item) := List.instDecidableMemOfLawfulBEq _ _

instance (item : Value) : Decidable (IsOutput item) := List.instDecidableMemOfLawfulBEq _ _

instance (item : Value) : Decidable (IsReasoning item) := instDecidableEqString _ _

/-- The identifiers of the calls among items. -/
def itemCallIds (unique : ℕ → String) : ℕ → List Value → List Value
  | _, [] => []
  | taken, item :: rest =>
    (if IsCall item then [.string (chatCallId (unique taken) item)] else []) ++
      itemCallIds unique (taken + 1) rest

/-- The identifiers that items answer. -/
def itemAnswers (items : List Value) : List Value :=
  (items.filter fun item => IsOutput item).map fun item => item.field "call_id"

/-- The items of a request come in turns. -/
inductive ItemsInTurns (unique : ℕ → String) : ℕ → List Value → Prop
  | nil {taken : ℕ} : ItemsInTurns unique taken []
  /-- Reasoning, or a message that does not have the role of results. -/
  | alone {taken : ℕ} {item : Value} {rest : List Value} (noCall : ¬ IsCall item)
      (noOutput : ¬ IsOutput item)
      (noTool : ¬ IsReasoning item → item.field "role" ≠ .string "tool")
      (later : ItemsInTurns unique (taken + 1) rest) : ItemsInTurns unique taken (item :: rest)
  /-- Calls and the results that answer them. -/
  | turn {taken : ℕ} {call : Value} {calls answers rest : List Value} (starts : IsCall call)
      (together : ∀ item ∈ calls, IsCall item ∨ (IsReasoning item ∧ itemThought item = ""))
      (answering : ∀ item ∈ answers, IsOutput item ∨ IsReasoning item)
      (imagesLast : answers.Pairwise fun item later =>
        IsOutput item → hasImages item = true → IsOutput later)
      (exactly : (itemAnswers answers).Perm (itemCallIds unique taken (call :: calls)))
      (later : ItemsInTurns unique (taken + (call :: calls).length + answers.length) rest) :
      ItemsInTurns unique taken (call :: calls ++ answers ++ rest)

/-- What a scan puts out for a call. -/
theorem Scan.push_call (unique : ℕ → String) (scan : Scan) {item : Value} (call : IsCall item) :
    scan.push unique item =
      { scan with taken := scan.taken + 1 }.flush.call (chatCallId (unique scan.taken) item) := by
  rw [IsCall] at call
  rcases List.mem_cons.mp call with kind | kind
  · simp [Scan.push, kind]
  · simp [Scan.push, List.mem_singleton.mp kind]

/-- What a scan puts out for a result. -/
theorem Scan.push_output (unique : ℕ → String) (scan : Scan) {item : Value}
    (output : IsOutput item) :
    scan.push unique item = { scan with taken := scan.taken + 1 }.output item := by
  rw [IsOutput] at output
  rcases List.mem_cons.mp output with kind | kind
  · simp [Scan.push, kind]
  · simp [Scan.push, List.mem_singleton.mp kind]

/-- What a scan keeps of reasoning. -/
theorem Scan.push_reasoning (unique : ℕ → String) (scan : Scan) {item : Value}
    (reasoning : IsReasoning item) :
    scan.push unique item = { { scan with taken := scan.taken + 1 }.flush with
      thinking := scan.thinking ∨ itemThought item ≠ "" } := by
  rw [IsReasoning] at reasoning
  simp [Scan.push, reasoning]

/-- What a scan puts out for a message. -/
theorem Scan.push_message (unique : ℕ → String) (scan : Scan) {item : Value}
    (noCall : ¬ IsCall item) (noOutput : ¬ IsOutput item) (noReasoning : ¬ IsReasoning item) :
    scan.push unique item = { scan with taken := scan.taken + 1 }.flush.message
      (item.field "role") := by
  simp only [IsCall, IsOutput, IsReasoning, List.mem_cons, List.not_mem_nil, or_false,
    not_or] at noCall noOutput noReasoning
  rw [Scan.push]
  simp only
  split <;> simp_all

/-- What a scan leaves waiting at the end of items. -/
def Scan.leaves (unique : ℕ → String) (scan : Scan) (items : List Value) :
    Option (List (Option Value)) := (items.foldl (Scan.push unique) scan).close

/-- Putting out images takes no item. -/
@[simp] theorem Scan.flush_taken (scan : Scan) : scan.flush.taken = scan.taken := by
  rw [Scan.flush]
  split <;> rfl

/-- Every item is counted. -/
theorem Scan.push_taken (unique : ℕ → String) (scan : Scan) (item : Value) :
    (scan.push unique item).taken = scan.taken + 1 := by
  by_cases call : IsCall item
  · rw [push_call _ _ call, Scan.call]
    split <;> simp
  · by_cases output : IsOutput item
    · rw [push_output _ _ output]
      rfl
    · by_cases reasoning : IsReasoning item
      · rw [push_reasoning _ _ reasoning]
        simp
      · rw [push_message _ _ call output reasoning, Scan.message]
        simp

/-- Without images there is nothing to put out. -/
theorem Scan.flush_eq {scan : Scan} (calm : scan.images = false) : scan.flush = scan := by
  rw [Scan.flush, if_neg (by simp [calm])]

/-- Putting out images keeps nothing waiting. -/
theorem Scan.flush_waiting {scan : Scan} (calm : scan.waiting = some []) :
    scan.flush.waiting = some [] := by
  rw [Scan.flush]
  split
  · simp [calm, settle]
  · exact calm

/-- What has gone wrong stays wrong. -/
theorem Scan.push_none {unique : ℕ → String} {scan : Scan} (wrong : scan.waiting = none)
    (item : Value) : (scan.push unique item).waiting = none := by
  have flushed : { scan with taken := scan.taken + 1 }.flush.waiting = none := by
    rw [Scan.flush]
    split
    · simp [wrong, settle]
    · exact wrong
  by_cases call : IsCall item
  · rw [push_call _ _ call, Scan.call]
    split <;> simp [flushed, settle]
  · by_cases output : IsOutput item
    · rw [push_output _ _ output, Scan.output]
      simp [wrong, settle]
    · by_cases reasoning : IsReasoning item
      · rw [push_reasoning _ _ reasoning]
        exact flushed
      · rw [push_message _ _ call output reasoning, Scan.message]
        simp [flushed, settle]

/-- What has gone wrong is wrong at the end. -/
theorem Scan.leaves_none {unique : ℕ → String} {scan : Scan} (wrong : scan.waiting = none)
    (items : List Value) : scan.leaves unique items = none := by
  induction items generalizing scan with
  | nil =>
    have flushed : scan.flush.waiting = none := by
      rw [Scan.flush]
      split
      · simp [wrong, settle]
      · exact wrong
    rw [leaves, List.foldl_nil, close, flushed]
    split <;> rfl
  | cons item items ih => exact ih (push_none wrong item)

/-- The first call of a turn waits for its result. -/
theorem Scan.push_first {unique : ℕ → String} {scan : Scan} (calm : scan.waiting = some [])
    {item : Value} (call : IsCall item) :
    scan.push unique item = ⟨some [some (.string (chatCallId (unique scan.taken) item))], true,
      false, false, scan.taken + 1⟩ := by
  have flushed : { scan with taken := scan.taken + 1 }.flush.waiting = some [] :=
    flush_waiting calm
  have shown : { scan with taken := scan.taken + 1 }.flush.images = false := by
    rw [Scan.flush]
    split
    · rfl
    · simpa using ‹¬ scan.images = true›
  have count : { scan with taken := scan.taken + 1 }.flush.taken = scan.taken + 1 := by simp
  rw [push_call _ _ call]
  generalize { scan with taken := scan.taken + 1 }.flush = next at flushed shown count
  obtain ⟨waiting, joins, thinking, images, taken⟩ := next
  subst flushed shown count
  cases joins <;> cases thinking <;> simp [Scan.call, settle]

/-- Calls and empty reasoning behind a call leave the calls waiting. -/
theorem Scan.foldl_calls {unique : ℕ → String} {taken : ℕ} {calls : List Value}
    {waiting : List (Option Value)}
    (together : ∀ item ∈ calls, IsCall item ∨ (IsReasoning item ∧ itemThought item = "")) :
    calls.foldl (Scan.push unique) ⟨some waiting, true, false, false, taken⟩ =
      ⟨some (waiting ++ (itemCallIds unique taken calls).map some), true, false, false,
        taken + calls.length⟩ := by
  induction calls generalizing waiting taken with
  | nil => simp [itemCallIds]
  | cons item calls ih =>
    have later : ∀ item ∈ calls, IsCall item ∨ (IsReasoning item ∧ itemThought item = "") :=
      fun other inside => together other (List.mem_cons_of_mem _ inside)
    have count : taken + (item :: calls).length = taken + 1 + calls.length := by
      rw [List.length_cons]
      omega
    rw [List.foldl_cons, itemCallIds, count]
    rcases together item (List.mem_cons_self ..) with call | ⟨reasoning, empty⟩
    · rw [push_call _ _ call, flush_eq rfl, Scan.call, if_pos (by simp)]
      simp [ih later, call]
    · have noCall : ¬ IsCall item := by
        simp [IsCall, show itemKind item = "reasoning" from reasoning]
      rw [push_reasoning _ _ reasoning, flush_eq rfl]
      simp [ih later, noCall, empty]

/-- Results that answer exactly what waits leave nothing waiting. -/
theorem Scan.foldl_answers (unique : ℕ → String) (scan : Scan) {answers : List Value}
    {waiting : List (Option Value)} (waits : scan.waiting = some waiting)
    (answering : ∀ item ∈ answers, IsOutput item ∨ IsReasoning item)
    (imagesLast : answers.Pairwise fun item later =>
      IsOutput item → hasImages item = true → IsOutput later)
    (shown : scan.images = true → ∀ item ∈ answers, IsOutput item)
    (exactly : ((itemAnswers answers).map some).Perm waiting) :
    (answers.foldl (Scan.push unique) scan).waiting = some [] ∧
      (answers.foldl (Scan.push unique) scan).taken = scan.taken + answers.length := by
  induction answers generalizing scan waiting with
  | nil => exact ⟨by rw [List.foldl_nil, waits, List.nil_perm.mp exactly], rfl⟩
  | cons item answers ih =>
    rw [List.pairwise_cons] at imagesLast
    have later : ∀ item ∈ answers, IsOutput item ∨ IsReasoning item :=
      fun other inside => answering other (List.mem_cons_of_mem _ inside)
    have count := push_taken unique scan item
    rw [List.foldl_cons, List.length_cons, Nat.add_comm answers.length, ← Nat.add_assoc, ← count]
    by_cases output : IsOutput item
    · have split : itemAnswers (item :: answers) = item.field "call_id" :: itemAnswers answers := by
        simp [itemAnswers, output]
      have whole : ([some (item.field "call_id")] ++ (itemAnswers answers).map some).Perm waiting := by
        rwa [split] at exactly
      obtain ⟨left, settled, rest⟩ := settleAll_answers whole
      refine ih _ ?_ later imagesLast.2 ?_ rest
      · rw [push_output _ _ output, Scan.output, waits]
        exact settled
      · rw [push_output _ _ output]
        simp only [Scan.output, decide_eq_true_eq]
        rintro (before | own) other inside
        · exact shown before other (List.mem_cons_of_mem _ inside)
        · exact imagesLast.1 other inside output own
    · have reasoning := (answering item (List.mem_cons_self ..)).resolve_left output
      have calm : scan.images = false := by
        by_contra held
        exact output (shown (by simpa using held) item (List.mem_cons_self ..))
      have split : itemAnswers (item :: answers) = itemAnswers answers := by
        simp [itemAnswers, output]
      rw [split] at exactly
      have still : { scan with taken := scan.taken + 1 }.images = false := calm
      refine ih _ ?_ later imagesLast.2 ?_ exactly
      · rw [push_reasoning _ _ reasoning, flush_eq still]
        exact waits
      · rw [push_reasoning _ _ reasoning, flush_eq still]
        exact fun held => absurd held (by simp [calm])

/-- Items that come in turns leave nothing waiting. -/
theorem Scan.leaves_of_turns {unique : ℕ → String} {taken : ℕ} {items : List Value}
    (inTurns : ItemsInTurns unique taken items) {scan : Scan} (calm : scan.waiting = some [])
    (count : scan.taken = taken) : scan.leaves unique items = some [] := by
  induction inTurns generalizing scan with
  | nil =>
    rw [leaves, List.foldl_nil, close, flush_waiting calm]
    split <;> rfl
  | @alone taken item rest noCall noOutput noTool later ih =>
    refine @ih (scan.push unique item) ?_ (by rw [push_taken, count])
    have flushed : { scan with taken := scan.taken + 1 }.flush.waiting = some [] :=
      flush_waiting calm
    by_cases reasoning : IsReasoning item
    · rw [push_reasoning _ _ reasoning]
      exact flushed
    · rw [push_message _ _ noCall noOutput reasoning, Scan.message, flushed,
        if_neg (noTool reasoning)]
      rfl
  | @turn taken call calls answers rest starts together answering imagesLast exactly later ih =>
    subst count
    rw [leaves, List.foldl_append, List.foldl_append, List.foldl_cons, push_first calm starts,
      foldl_calls together]
    have ids : some (Value.string (chatCallId (unique scan.taken) call)) ::
        (itemCallIds unique (scan.taken + 1) calls).map some =
        (itemCallIds unique scan.taken (call :: calls)).map some := by
      rw [itemCallIds, if_pos starts]
      rfl
    obtain ⟨settled, count⟩ := foldl_answers unique
      (⟨some (([some (Value.string (chatCallId (unique scan.taken) call))]) ++
        (itemCallIds unique (scan.taken + 1) calls).map some), true, false, false,
        scan.taken + 1 + calls.length⟩) rfl answering imagesLast (by simp)
      (by rw [List.singleton_append, ids]; exact exactly.map some)
    refine ih settled ?_
    rw [count, List.length_cons]
    simp only
    omega

/-- Images that have to be put out while something waits are wrong. -/
theorem Scan.flush_wrong {scan : Scan} {waiting : List (Option Value)}
    (waits : scan.waiting = some waiting) (some_ : waiting ≠ []) (shown : scan.images = true) :
    scan.flush.waiting = none := by
  rw [Scan.flush, if_pos shown, waits, settle_waiting some_ (by simp)]

/-- A call that joins no call is wrong while something waits. -/
theorem Scan.call_wrong {unique : ℕ → String} {scan : Scan} {waiting : List (Option Value)}
    (waits : scan.waiting = some waiting) (some_ : waiting ≠ [])
    (apart : ¬ (scan.joins = true ∧ scan.thinking = false)) {item : Value} (call : IsCall item) :
    (scan.push unique item).waiting = none := by
  rw [push_call _ _ call]
  by_cases shown : scan.images = true
  · have flushed : { scan with taken := scan.taken + 1 }.flush.waiting = none :=
      flush_wrong waits some_ shown
    rw [Scan.call, flushed]
    split <;> rfl
  · have still : { scan with taken := scan.taken + 1 }.images = false := by simpa using shown
    rw [flush_eq still, Scan.call, if_neg (by simpa using apart), waits,
      settle_waiting some_ (by simp)]

/-- A message is wrong while something waits. -/
theorem Scan.message_wrong {unique : ℕ → String} {scan : Scan} {waiting : List (Option Value)}
    (waits : scan.waiting = some waiting) (some_ : waiting ≠ []) (known : none ∉ waiting)
    {item : Value} (noCall : ¬ IsCall item) (noOutput : ¬ IsOutput item)
    (noReasoning : ¬ IsReasoning item) : (scan.push unique item).waiting = none := by
  rw [push_message _ _ noCall noOutput noReasoning, Scan.message]
  by_cases shown : scan.images = true
  · have flushed : { scan with taken := scan.taken + 1 }.flush.waiting = none :=
      flush_wrong waits some_ shown
    rw [flushed]
    rfl
  · have still : { scan with taken := scan.taken + 1 }.images = false := by simpa using shown
    rw [flush_eq still, waits]
    refine settle_waiting some_ fun id answered inside => ?_
    split at answered
    · cases answered
      exact known inside
    · cases answered

/-- The end of the items is wrong while something waits. -/
theorem Scan.close_wrong {scan : Scan} {waiting : List (Option Value)}
    (waits : scan.waiting = some waiting) (some_ : waiting ≠ []) : scan.close ≠ some [] := by
  intro closed
  rw [close] at closed
  by_cases shown : scan.images = true
  · rw [flush_wrong waits some_ shown] at closed
    split at closed <;> cases closed
  · rw [flush_eq (by simpa using shown), waits] at closed
    split at closed
    · rw [settle_waiting some_ (by simp)] at closed
      cases closed
    · exact some_ (Option.some.inj closed)

/-- Where calls wait that no call joins, their results follow. -/
theorem Scan.answers_of_leaves {unique : ℕ → String} {scan : Scan} {items : List Value}
    {waiting : List (Option Value)} (waits : scan.waiting = some waiting) (known : none ∉ waiting)
    (apart : scan.joins = true → scan.thinking = false → ∀ item ∈ items.head?,
      ¬ IsCall item ∧ ¬ (IsReasoning item ∧ itemThought item = ""))
    (left : scan.leaves unique items = some []) :
    ∃ answers rest, items = answers ++ rest ∧
      (∀ item ∈ answers, IsOutput item ∨ IsReasoning item) ∧
      (answers.Pairwise fun item later =>
        IsOutput item → hasImages item = true → IsOutput later) ∧
      (scan.images = true → ∀ item ∈ answers, IsOutput item) ∧
      ((itemAnswers answers).map some).Perm waiting ∧
      (answers.foldl (Scan.push unique) scan).leaves unique rest = some [] := by
  induction items generalizing scan waiting with
  | nil =>
    by_cases idle : waiting = []
    · subst idle
      exact ⟨[], [], rfl, by simp, .nil, by simp, .nil, left⟩
    · exact absurd left (close_wrong waits idle)
  | cons item items ih =>
    by_cases idle : waiting = []
    · subst idle
      exact ⟨[], item :: items, rfl, by simp, .nil, by simp, .nil, left⟩
    · have next : (scan.push unique item).leaves unique items = some [] := left
      have right : (scan.push unique item).waiting ≠ none := fun wrong => by
        rw [leaves_none wrong] at next
        cases next
      by_cases call : IsCall item
      · refine absurd (call_wrong waits idle ?_ call) right
        exact fun both => (apart both.1 both.2 item rfl).1 call
      · by_cases output : IsOutput item
        · have split : ∀ answers, itemAnswers (item :: answers) =
              item.field "call_id" :: itemAnswers answers := by
            simp [itemAnswers, output]
          have pushed := push_output unique scan output
          rw [pushed, Scan.output, waits] at right
          have listed : some (item.field "call_id") ∈ waiting := by
            by_contra missing
            exact right (if_neg missing)
          obtain ⟨left', settled', split'⟩ := settle_answer listed
          have settled : (scan.push unique item).waiting = some left' := by
            rw [pushed]
            simp only [Scan.output, waits, settled']
          have parted : (scan.push unique item).joins ≠ true := by
            rw [pushed]
            exact Bool.false_ne_true
          obtain ⟨answers, rest, rfl, answering, imagesLast, shown, exactly, later⟩ :=
            ih settled (fun inside => known (split'.symm.subset (List.mem_cons_of_mem _ inside)))
              (fun joins => absurd joins parted) next
          rw [pushed] at shown
          simp only [Scan.output, decide_eq_true_eq] at shown
          refine ⟨item :: answers, rest, rfl, ?_, ?_, ?_, ?_, later⟩
          · simpa [output] using answering
          · exact List.pairwise_cons.mpr ⟨fun other inside _ own => shown (Or.inr own) other inside,
              imagesLast⟩
          · intro before
            simpa [output] using shown (Or.inl before)
          · rw [split, List.map_cons]
            exact (exactly.cons _).trans split'.symm
        · by_cases reasoning : IsReasoning item
          · have split : ∀ answers, itemAnswers (item :: answers) = itemAnswers answers := by
              simp [itemAnswers, output]
            have pushed := push_reasoning unique scan reasoning
            have still : { scan with taken := scan.taken + 1 }.images = false := by
              by_contra shown
              refine right ?_
              rw [pushed]
              exact flush_wrong waits idle (by simpa using shown)
            rw [flush_eq still] at pushed
            have settled : (scan.push unique item).waiting = some waiting := by
              rw [pushed]
              exact waits
            have parted : (scan.push unique item).joins = true →
                (scan.push unique item).thinking ≠ false := by
              rw [pushed]
              intro joins calm
              simp only [decide_eq_false_iff_not, not_or, Bool.not_eq_true, not_not] at calm
              exact (apart joins calm.1 item rfl).2 ⟨reasoning, calm.2⟩
            obtain ⟨answers, rest, rfl, answering, imagesLast, -, exactly, later⟩ :=
              ih settled known (fun joins calm => absurd calm (parted joins)) next
            refine ⟨item :: answers, rest, rfl, ?_, ?_, ?_, by rwa [split], later⟩
            · simpa [reasoning] using answering
            · exact List.pairwise_cons.mpr ⟨fun _ _ own => absurd own output, imagesLast⟩
            · exact fun shown => absurd shown (by simpa using still)
          · exact absurd (message_wrong waits idle known call output reasoning) right

/-- Where calls wait that a call would join, more calls may follow, and then their results. -/
theorem Scan.calls_of_leaves {unique : ℕ → String} {taken : ℕ} {items : List Value}
    {waiting : List (Option Value)} (known : none ∉ waiting)
    (left : (Scan.mk (some waiting) true false false taken).leaves unique items = some []) :
    ∃ calls answers rest, items = calls ++ answers ++ rest ∧
      (∀ item ∈ calls, IsCall item ∨ (IsReasoning item ∧ itemThought item = "")) ∧
      (∀ item ∈ answers, IsOutput item ∨ IsReasoning item) ∧
      (answers.Pairwise fun item later =>
        IsOutput item → hasImages item = true → IsOutput later) ∧
      ((itemAnswers answers).map some).Perm
        (waiting ++ (itemCallIds unique taken calls).map some) ∧
      (answers.foldl (Scan.push unique) ⟨some (waiting ++ (itemCallIds unique taken calls).map some),
        true, false, false, taken + calls.length⟩).leaves unique rest = some [] := by
  induction items generalizing waiting taken with
  | nil =>
    have idle : waiting = [] := by
      by_contra some_
      exact close_wrong rfl some_ left
    subst idle
    exact ⟨[], [], [], rfl, by simp, by simp, .nil, .nil, left⟩
  | cons item items ih =>
    by_cases call : IsCall item
    · have pushed : (Scan.mk (some waiting) true false false taken).push unique item =
          ⟨some (waiting ++ [some (.string (chatCallId (unique taken) item))]), true, false, false,
            taken + 1⟩ := by
        rw [push_call _ _ call, flush_eq rfl, Scan.call, if_pos (by simp)]
        rfl
      rw [leaves, List.foldl_cons, pushed] at left
      obtain ⟨calls, answers, rest, rfl, together, answering, imagesLast, exactly, later⟩ :=
        ih (by simpa using known) left
      have ids : waiting ++ (itemCallIds unique taken (item :: calls)).map some =
          waiting ++ [some (.string (chatCallId (unique taken) item))] ++
            (itemCallIds unique (taken + 1) calls).map some := by
        simp [itemCallIds, call]
      have count : taken + (item :: calls).length = taken + 1 + calls.length := by
        rw [List.length_cons]
        omega
      refine ⟨item :: calls, answers, rest, rfl, by simpa [call] using together, answering,
        imagesLast, ?_, ?_⟩
      · rwa [ids]
      · rwa [ids, count]
    · by_cases pause : IsReasoning item ∧ itemThought item = ""
      · have pushed : (Scan.mk (some waiting) true false false taken).push unique item =
            ⟨some waiting, true, false, false, taken + 1⟩ := by
          rw [push_reasoning _ _ pause.1, flush_eq rfl]
          simp [pause.2]
        rw [leaves, List.foldl_cons, pushed] at left
        obtain ⟨calls, answers, rest, rfl, together, answering, imagesLast, exactly, later⟩ :=
          ih known left
        have ids : itemCallIds unique taken (item :: calls) =
            itemCallIds unique (taken + 1) calls := by
          simp [itemCallIds, call]
        have count : taken + (item :: calls).length = taken + 1 + calls.length := by
          rw [List.length_cons]
          omega
        refine ⟨item :: calls, answers, rest, rfl, by simpa [pause] using together, answering,
          imagesLast, ?_, ?_⟩
        · rwa [ids]
        · rwa [ids, count]
      · obtain ⟨answers, rest, whole, answering, imagesLast, -, exactly, later⟩ :=
          answers_of_leaves rfl known (fun _ _ other found => by
            cases found
            exact ⟨call, pause⟩) left
        refine ⟨[], answers, rest, whole, by simp, answering, imagesLast, ?_, ?_⟩
        · simpa [itemCallIds] using exactly
        · simpa [itemCallIds] using later

/-- Items that leave nothing waiting come in turns. -/
theorem Scan.turns_of_leaves {unique : ℕ → String} {scan : Scan} {items : List Value}
    (calm : scan.waiting = some []) (left : scan.leaves unique items = some []) :
    ItemsInTurns unique scan.taken items := by
  induction length : items.length using Nat.strongRecOn generalizing scan items with
  | ind count ih =>
    cases items with
    | nil => exact .nil
    | cons item items =>
      have next : (scan.push unique item).leaves unique items = some [] := left
      rw [List.length_cons] at length
      by_cases call : IsCall item
      · rw [push_first calm call] at next
        obtain ⟨calls, answers, rest, rfl, together, answering, imagesLast, exactly, later⟩ :=
          calls_of_leaves (by simp) next
        have ids : [some (.string (chatCallId (unique scan.taken) item))] ++
            (itemCallIds unique (scan.taken + 1) calls).map some =
            (itemCallIds unique scan.taken (item :: calls)).map some := by
          simp [itemCallIds, call]
        rw [ids] at exactly later
        obtain ⟨settled, taken⟩ := foldl_answers unique
          (⟨some ((itemCallIds unique scan.taken (item :: calls)).map some), true, false,
            false, scan.taken + 1 + calls.length⟩) rfl answering imagesLast (by simp) exactly
        have finished := ih rest.length (by simp at length; omega) settled later rfl
        rw [taken] at finished
        have turn := @ItemsInTurns.turn _ _ _ _ _ rest call together answering imagesLast
          ((List.map_perm_map_iff (Option.some_injective _)).mp exactly)
          (by rwa [List.length_cons, ← Nat.add_assoc, Nat.add_right_comm scan.taken])
        simpa using turn
      · have output : ¬ IsOutput item := fun output => by
          have wrong : (scan.push unique item).waiting = none := by
            rw [push_output _ _ output]
            simp only [Scan.output, calm, settle, if_neg List.not_mem_nil]
          rw [leaves_none wrong] at next
          cases next
        have flushed : { scan with taken := scan.taken + 1 }.flush.waiting = some [] :=
          flush_waiting calm
        have still : (¬ IsReasoning item → item.field "role" ≠ .string "tool") ∧
            (scan.push unique item).waiting = some [] := by
          by_cases reasoning : IsReasoning item
          · refine ⟨absurd reasoning, ?_⟩
            rw [push_reasoning _ _ reasoning]
            exact flushed
          · have pushed := push_message unique scan call output reasoning
            by_cases tool : item.field "role" = .string "tool"
            · have wrong : (scan.push unique item).waiting = none := by
                rw [pushed]
                simp only [Scan.message, flushed, if_pos tool, settle, if_neg List.not_mem_nil]
              rw [leaves_none wrong] at next
              cases next
            · refine ⟨fun _ => tool, ?_⟩
              rw [pushed]
              simp only [Scan.message, flushed, if_neg tool, settle, if_pos]
        have finished := ih items.length (by omega) still.2 next rfl
        rw [push_taken] at finished
        exact .alone call output still.1 finished

/-- The items of a request come in turns exactly when they leave nothing waiting. -/
theorem Scan.leaves_iff_turns {unique : ℕ → String} {scan : Scan} {items : List Value}
    (calm : scan.waiting = some []) :
    scan.leaves unique items = some [] ↔ ItemsInTurns unique scan.taken items :=
  ⟨turns_of_leaves calm, fun inTurns => leaves_of_turns inTurns calm rfl⟩

end Aipass.Conversion
