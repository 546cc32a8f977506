import Aipass.Proxy.Observe

/-!
# Counters across the formats

Anthropic counts the tokens read from a cache and written to one apart from the input, the two
OpenAI formats count them inside it. A usage object of one format is converted by one of three
functions, and the totals read from the converted object are those read from the original.
-/
namespace Aipass.Conversion

open Proxy (TokenUsage extractUsage)

/-- The conversion of a usage object between two formats. -/
def convertUsage (source target : ProxyProtocol) (counters : Value) : Value :=
  match source, target with
  | AM, CC =>
    amUsageToOpenai (some counters) "prompt_tokens" "completion_tokens" "prompt_tokens_details"
  | AM, RS =>
    amUsageToOpenai (some counters) "input_tokens" "output_tokens" "input_tokens_details"
  | CC, AM => openaiUsageToAm (some counters) "prompt_tokens" "prompt_tokens_details"
  | RS, AM => openaiUsageToAm (some counters) "input_tokens" "input_tokens_details"
  | CC, RS => usage counters RS
  | RS, CC => usage counters CC
  | _, _ => counters

/-- The counters of a format of OpenAI. -/
def ProxyProtocol.keys : ProxyProtocol → UsageKeys
  | CC => chatKeys
  | _ => responsesKeys

/-- The counters of the other format of OpenAI. -/
def ProxyProtocol.foreignKeys : ProxyProtocol → UsageKeys
  | CC => responsesKeys
  | _ => chatKeys

/-- A usage object of a format: it is not wrapped in another, a sum of its counters fits in 64
bits, it has no counter of the other format of OpenAI, and no key twice. -/
structure UsageOf (source : ProxyProtocol) (counters : Value) : Prop where
  /-- It is not wrapped in another object. -/
  bare : counters.get "usage" = none
  /-- Anthropic's tokens read fit in 64 bits. -/
  fits : source = AM → number (counters.get "input_tokens") +
    number (counters.get "cache_read_input_tokens") +
    number (counters.get "cache_creation_input_tokens") < 2 ^ 64
  /-- No counter of the other format counts tokens read. -/
  ownInput : source ≠ AM → counters.get source.foreignKeys.input = none
  /-- No counter of the other format counts tokens written. -/
  ownOutput : source ≠ AM → counters.get source.foreignKeys.output = none
  /-- No counter of the other format tells apart the tokens read. -/
  ownDetails : source ≠ AM → counters.get source.foreignKeys.details = none
  /-- No key is in an object twice. -/
  distinct : counters.Distinct

section Reading

variable {counters : Value}

/-- The counter of a written number. -/
@[simp] theorem number_nat (count : ℕ) : number (some (.nat count)) = count := rfl

/-- An absent counter counts nothing. -/
@[simp] theorem number_none : number none = 0 := rfl

/-- A sum that fits does not saturate. -/
theorem saturatingAdd_of_fits {left right : ℕ} (fits : left + right < 2 ^ 64) :
    saturatingAdd left right = left + right := by
  rw [saturatingAdd]
  omega

/-- What `am_usage_to_openai` tells of the tokens read. -/
def inputDetails (counters : Value) : Value :=
  let cacheCreation := number (counters.get "cache_creation_input_tokens")
  let details := Value.obj
    [("cached_tokens", .nat (number (counters.get "cache_read_input_tokens"))),
      ("cache_creation_tokens", .nat cacheCreation)]
  match (counters.pointer ["cache_creation", "ephemeral_1h_input_tokens"]).bind Value.asU64 with
  | some hour => details.set "cache_creation_1h_tokens" (.nat (min hour cacheCreation))
  | none => details

/-- The details tell of the tokens read from a cache. -/
theorem cached_inputDetails (counters : Value) :
    number ((inputDetails counters).get "cached_tokens") =
      number (counters.get "cache_read_input_tokens") := by
  simp only [inputDetails]
  split <;> simp

/-- The details tell of the tokens written to a cache. -/
theorem creation_inputDetails (counters : Value) :
    number ((inputDetails counters).get "cache_creation_tokens") =
      number (counters.get "cache_creation_input_tokens") := by
  simp only [inputDetails]
  split <;> simp

/-- The details tell of the tokens written to a cache for an hour, at most those written. -/
theorem hour_inputDetails (counters : Value) :
    number ((inputDetails counters).get "cache_creation_1h_tokens") =
      min (number (counters.pointer ["cache_creation", "ephemeral_1h_input_tokens"]))
        (number (counters.get "cache_creation_input_tokens")) := by
  have hours : number (counters.pointer ["cache_creation", "ephemeral_1h_input_tokens"]) =
    ((counters.pointer ["cache_creation", "ephemeral_1h_input_tokens"]).bind Value.asU64).getD 0 :=
      rfl
  rw [hours]
  simp only [inputDetails]
  split
  · next hour found =>
    rw [found]
    simp
  · next found =>
    rw [found]
    simp

/-- Changing fractions changes no total. -/
theorem extractUsage_mapFloats (change : String → String) (protocol : ProxyProtocol)
    (value : Value) :
    extractUsage protocol (value.mapFloats change) = extractUsage protocol value := by
  have counted : ∀ value : Value, ∀ key, number ((value.mapFloats change).get key) =
      number (value.get key) := by
    intro value key
    rw [Value.get_mapFloats]
    cases value.get key with
    | none => rfl
    | some inner => exact congrArg (Option.getD · 0) (Value.asU64_mapFloats change inner)
  have nested : ∀ value : Value, ∀ path, number ((value.mapFloats change).pointer path) =
      number (value.pointer path) := by
    intro value path
    rw [Value.pointer_mapFloats]
    cases value.pointer path with
    | none => rfl
    | some inner => exact congrArg (Option.getD · 0) (Value.asU64_mapFloats change inner)
  have unwrapping : ((value.mapFloats change).get "usage").getD (value.mapFloats change) =
      ((value.get "usage").getD value).mapFloats change := by
    rw [Value.get_mapFloats]
    cases value.get "usage" <;> rfl
  cases protocol <;> simp only [extractUsage, unwrapping, counted, nested]

/-- A usage object with its input summed up reads as the original. -/
theorem extractUsage_amUsageToOpenai (usageOf : UsageOf AM counters) {target : ProxyProtocol}
    (other : target ≠ AM) :
    extractUsage target (amUsageToOpenai (some counters) target.keys.input target.keys.output
      target.keys.details) = extractUsage AM counters := by
  have fits := usageOf.fits rfl
  have summed : amUsageToOpenai (some counters) target.keys.input target.keys.output
      target.keys.details = .obj
        [(target.keys.input, .nat (number (counters.get "input_tokens") +
          number (counters.get "cache_read_input_tokens") +
          number (counters.get "cache_creation_input_tokens"))),
        (target.keys.output, .nat (number (counters.get "output_tokens"))),
        ("total_tokens", .nat (saturatingAdd (number (counters.get "input_tokens") +
          number (counters.get "cache_read_input_tokens") +
          number (counters.get "cache_creation_input_tokens"))
          (number (counters.get "output_tokens")))),
        (target.keys.details, inputDetails counters)] := by
    have first := @saturatingAdd_of_fits (number (counters.get "input_tokens"))
      (number (counters.get "cache_read_input_tokens")) (by omega)
    have second := saturatingAdd_of_fits fits
    simp only [amUsageToOpenai, Option.getD_some, first, second]
    rfl
  rw [summed]
  cases target with
  | anthropicMessages => exact absurd rfl other
  | openAiResponses =>
    simp [extractUsage, ProxyProtocol.keys, responsesKeys, usageOf.bare, cached_inputDetails,
      creation_inputDetails, hour_inputDetails]
    omega
  | openAiChatCompletions =>
    simp [extractUsage, ProxyProtocol.keys, chatKeys, usageOf.bare, cached_inputDetails,
      creation_inputDetails, hour_inputDetails]
    omega

/-- A usage object of a format of OpenAI has no counter of the other one. -/
def Own (source : ProxyProtocol) (counters : Value) : Prop :=
  counters.get "usage" = none ∧ counters.get source.foreignKeys.input = none ∧
    counters.get source.foreignKeys.output = none ∧ counters.get source.foreignKeys.details = none

/-- A usage object has only its own counters. -/
theorem UsageOf.own {source : ProxyProtocol} (usageOf : UsageOf source counters)
    (openai : source ≠ AM) : Own source counters :=
  ⟨usageOf.bare, usageOf.ownInput openai, usageOf.ownOutput openai, usageOf.ownDetails openai⟩

/-- The totals of a format of OpenAI, read from its own counters. -/
theorem extractUsage_of_own {source : ProxyProtocol} (own : Own source counters)
    (openai : source ≠ AM) :
    extractUsage source counters =
      { inputTokens := number (counters.get source.keys.input) -
          number (counters.pointer [source.keys.details, "cached_tokens"]) -
          number (counters.pointer [source.keys.details, "cache_creation_tokens"])
        outputTokens := number (counters.get source.keys.output)
        cacheReadTokens := number (counters.pointer [source.keys.details, "cached_tokens"])
        cacheCreationTokens :=
          number (counters.pointer [source.keys.details, "cache_creation_tokens"])
        cacheCreation1hTokens :=
          min (number (counters.pointer [source.keys.details, "cache_creation_1h_tokens"]))
            (number (counters.pointer [source.keys.details, "cache_creation_tokens"])) } := by
  obtain ⟨bare, input, output, details⟩ := own
  cases source with
  | anthropicMessages => exact absurd rfl openai
  | openAiResponses =>
    simp only [ProxyProtocol.foreignKeys, chatKeys] at input output details
    simp [extractUsage, ProxyProtocol.keys, responsesKeys, bare, input, output, details]
  | openAiChatCompletions =>
    simp only [ProxyProtocol.foreignKeys, responsesKeys] at input output details
    simp [extractUsage, ProxyProtocol.keys, chatKeys, bare, input, output, details]

/-- A usage object with the cache taken out of its input reads as the original. -/
theorem extractUsage_openaiUsageToAm {source : ProxyProtocol} (own : Own source counters)
    (openai : source ≠ AM) :
    extractUsage AM (openaiUsageToAm (some counters) source.keys.input source.keys.details) =
      extractUsage source counters := by
  have written : max (number (counters.get "output_tokens"))
      (number (counters.get "completion_tokens")) = number (counters.get source.keys.output) := by
    have foreign := own.2.2.1
    cases source with
    | anthropicMessages => exact absurd rfl openai
    | openAiResponses =>
      simp only [ProxyProtocol.foreignKeys, chatKeys] at foreign
      simp [foreign, ProxyProtocol.keys, responsesKeys]
    | openAiChatCompletions =>
      simp only [ProxyProtocol.foreignKeys, responsesKeys] at foreign
      simp [foreign, ProxyProtocol.keys, chatKeys]
  rw [extractUsage_of_own own openai, ← written]
  generalize source.keys.input = inputKey
  generalize source.keys.details = detailsKey
  have hours : number (counters.pointer [detailsKey, "cache_creation_1h_tokens"]) =
    ((counters.pointer [detailsKey, "cache_creation_1h_tokens"]).bind Value.asU64).getD 0 := rfl
  rw [hours]
  simp only [openaiUsageToAm, Option.getD_some]
  split
  · next hour found =>
    rw [found]
    simp [extractUsage]
  · next found =>
    rw [found]
    simp [extractUsage]

/-- A usage object with its counters renamed keeps them. -/
theorem get_usage {source target : ProxyProtocol} (openai : source ≠ AM) (other : target ≠ AM)
    (differ : source ≠ target) :
    Own target (usage counters target) ∧
      number ((usage counters target).get target.keys.input) =
        number (counters.get source.keys.input) ∧
      number ((usage counters target).get target.keys.output) =
        number (counters.get source.keys.output) ∧
      (usage counters target).get target.keys.details = counters.get source.keys.details := by
  cases source <;> cases target <;> try contradiction
  · cases details : counters.get "input_tokens_details" <;>
      cases outputs : counters.get "output_tokens_details" <;>
        simp [usage, Own, ProxyProtocol.keys, ProxyProtocol.foreignKeys, responsesKeys, chatKeys,
          details, outputs]
  · cases details : counters.get "prompt_tokens_details" <;>
      cases outputs : counters.get "completion_tokens_details" <;>
        simp [usage, Own, ProxyProtocol.keys, ProxyProtocol.foreignKeys, responsesKeys, chatKeys,
          details, outputs]

/-- A usage object with its counters renamed reads as the original. -/
theorem extractUsage_usage {source target : ProxyProtocol} (own : Own source counters)
    (openai : source ≠ AM) (other : target ≠ AM) (differ : source ≠ target) :
    extractUsage target (usage counters target) = extractUsage source counters := by
  obtain ⟨renamed, input, output, details⟩ := @get_usage counters _ _ openai other differ
  rw [extractUsage_of_own own openai, extractUsage_of_own renamed other]
  simp only [Value.pointer_cons, Value.pointer_nil, input, output, details]

/-- The totals of a converted usage object are those of the original. -/
theorem extractUsage_convertUsage {source target : ProxyProtocol}
    (usageOf : UsageOf source counters) (differ : source ≠ target) :
    extractUsage target (convertUsage source target counters) = extractUsage source counters := by
  cases source with
  | anthropicMessages =>
    cases target with
    | anthropicMessages => exact absurd rfl differ
    | openAiResponses => exact extractUsage_amUsageToOpenai usageOf (by decide)
    | openAiChatCompletions => exact extractUsage_amUsageToOpenai usageOf (by decide)
  | openAiResponses =>
    cases target with
    | anthropicMessages =>
      have uncached := extractUsage_openaiUsageToAm (usageOf.own (by decide)) (by decide)
      exact uncached
    | openAiResponses => exact absurd rfl differ
    | openAiChatCompletions =>
      exact extractUsage_usage (usageOf.own (by decide)) (by decide) (by decide) differ
  | openAiChatCompletions =>
    cases target with
    | anthropicMessages =>
      have uncached := extractUsage_openaiUsageToAm (usageOf.own (by decide)) (by decide)
      exact uncached
    | openAiResponses =>
      exact extractUsage_usage (usageOf.own (by decide)) (by decide) (by decide) differ
    | openAiChatCompletions => exact absurd rfl differ

end Reading

section Merging

/-- One pass of the loop of `merge`. -/
def mergeField (total : Value) (key : String) : Value → Value
  | .object fields => total.set key (merge (total.field key) (.object fields))
  | value => if value.asU64.isSome then total.set key value else total

/-- The loop of `merge` is one pass after another. -/
theorem mergeFields_cons (total : Value) (key : String) (value : Value)
    (rest : List (String × Value)) :
    mergeFields total ((key, value) :: rest) = mergeFields (mergeField total key value) rest := by
  cases value <;> rfl

/-- What a field makes of the one that was under its key: an object is merged, a counter
replaces, anything else is ignored. -/
def merged (old : Option Value) : Value → Option Value
  | .object fields => some (merge (old.getD .null) (.object fields))
  | value => if value.asU64.isSome then some value else old

/-- A pass changes the field under its key. -/
theorem get_mergeField {total : Value} (isObject : total.IsObject) (key sought : String)
    (value : Value) :
    (mergeField total key value).get sought =
      if key = sought then merged (total.get key) value else total.get sought := by
  by_cases here : key = sought
  · subst here
    rw [if_pos rfl, mergeField.eq_def, merged.eq_def]
    split
    · simp [isObject, Value.field]
    · split <;> simp [isObject]
  · rw [if_neg here, mergeField.eq_def]
    split
    · simp [isObject, here]
    · split <;> simp [isObject, here]

/-- A pass keeps an object an object. -/
theorem isObject_mergeField {total : Value} (isObject : total.IsObject) (key : String)
    (value : Value) : (mergeField total key value).IsObject := by
  rw [mergeField.eq_def]
  split
  · exact Value.isObject_set isObject _ _
  · split
    · exact Value.isObject_set isObject _ _
    · exact isObject

/-- The fields of a merge: those of the update change what there was. -/
theorem get_mergeFields (key : String) {fields : List (String × Value)}
    (distinct : (fields.map Prod.fst).Nodup) {total : Value} (isObject : total.IsObject) :
    (mergeFields total fields).get key =
      match Value.lookup key fields with
      | some value => merged (total.get key) value
      | none => total.get key := by
  induction fields generalizing total with
  | nil => rfl
  | cons field rest ih =>
    obtain ⟨held, value⟩ := field
    rw [List.map_cons, List.nodup_cons] at distinct
    rw [mergeFields_cons, ih distinct.2 (isObject_mergeField isObject held value),
      get_mergeField isObject, Value.lookup]
    by_cases here : held = key
    · subst here
      rw [Value.lookup_of_not_mem distinct.1, if_pos rfl, if_pos rfl]
    · rw [if_neg here, if_neg here]

/-- A merge of fields keeps an object an object. -/
theorem isObject_mergeFields (fields : List (String × Value)) {total : Value}
    (isObject : total.IsObject) : (mergeFields total fields).IsObject := by
  induction fields generalizing total with
  | nil => exact isObject
  | cons field rest ih =>
    rw [mergeFields_cons]
    exact ih (isObject_mergeField isObject field.1 field.2)

/-- An object is no counter. -/
theorem number_of_isObject {value : Value} (isObject : value.IsObject) :
    number (some value) = 0 := by
  cases value with
  | object fields => rfl
  | _ => exact isObject.elim

/-- A field merged into nothing. -/
theorem get_merge_null {fields : List (String × Value)}
    (distinct : (fields.map Prod.fst).Nodup) (key : String) :
    (merge .null (.object fields)).get key = (Value.lookup key fields).bind (merged none) := by
  have empty : (Value.object []).IsObject := trivial
  have merging : merge .null (.object fields) = mergeFields (.object []) fields := rfl
  rw [merging, get_mergeFields key distinct empty]
  cases Value.lookup key fields <;> rfl

/-- A counter merged into nothing is kept. -/
theorem number_merge (value : Value)
    (distinct : ∀ fields, value = .object fields → (fields.map Prod.fst).Nodup) (key : String) :
    number ((merge .null value).get key) = number (value.get key) := by
  cases value with
  | object fields =>
    rw [get_merge_null (distinct fields rfl), Value.get]
    cases Value.lookup key fields with
    | none => rfl
    | some value =>
      cases value with
      | object inner =>
        have isObject := @isObject_mergeFields inner (.object []) trivial
        exact number_of_isObject isObject
      | number count => cases count <;> rfl
      | _ => rfl
  | _ => rfl

/-- A counter of a nested object merged into nothing is kept. -/
theorem number_merge_pointer (value : Value)
    (distinct : ∀ fields, value = .object fields → (fields.map Prod.fst).Nodup) (outer key : String)
    (nested : ∀ fields, value.get outer = some (.object fields) → (fields.map Prod.fst).Nodup) :
    number ((merge .null value).pointer [outer, key]) = number (value.pointer [outer, key]) := by
  simp only [Value.pointer_cons, Value.pointer_nil]
  cases value with
  | object fields =>
    rw [get_merge_null (distinct fields rfl)]
    have listed : (Value.object fields).get outer = Value.lookup outer fields := rfl
    rw [listed] at nested ⊢
    cases found : Value.lookup outer fields with
    | none => rfl
    | some value =>
      cases value with
      | object inner =>
        have kept := number_merge (.object inner)
          (fun fields same => nested fields (by rw [found, same])) key
        simpa [merged] using kept
      | number count => cases count <;> rfl
      | _ => rfl
  | _ => rfl

/-- What is absent stays absent when merged into nothing. -/
theorem get_merge_absent {value : Value}
    (distinct : ∀ fields, value = .object fields → (fields.map Prod.fst).Nodup) {key : String}
    (absent : value.get key = none) : (merge .null value).get key = none := by
  cases value with
  | object fields =>
    rw [Value.get] at absent
    rw [get_merge_null (distinct fields rfl), absent]
    rfl
  | _ => rfl

/-- A usage object merged into nothing reads as itself. -/
theorem extractUsage_merge {source : ProxyProtocol} {counters : Value} (own : Own source counters)
    (openai : source ≠ AM)
    (distinct : ∀ fields, counters = .object fields → (fields.map Prod.fst).Nodup)
    (nested : ∀ fields, counters.get source.keys.details = some (.object fields) →
      (fields.map Prod.fst).Nodup) :
    Own source (merge .null counters) ∧
      extractUsage source (merge .null counters) = extractUsage source counters := by
  obtain ⟨bare, input, output, details⟩ := own
  have kept : Own source (merge .null counters) :=
    ⟨get_merge_absent distinct bare, get_merge_absent distinct input,
      get_merge_absent distinct output, get_merge_absent distinct details⟩
  refine ⟨kept, ?_⟩
  rw [extractUsage_of_own kept openai,
    extractUsage_of_own ⟨bare, input, output, details⟩ openai]
  simp only [number_merge counters distinct, number_merge_pointer counters distinct _ _ nested]

/-- Changing fractions brings no counter of the other format. -/
theorem Own.mapFloats {source : ProxyProtocol} {counters : Value} (own : Own source counters)
    (change : String → String) : Own source (counters.mapFloats change) := by
  obtain ⟨bare, input, output, details⟩ := own
  simp [Own, bare, input, output, details]

/-- Changing fractions changes no key. -/
theorem keys_mapFloats (change : String → String) (fields : List (String × Value)) :
    (Value.mapFloatsFields change fields).map Prod.fst = fields.map Prod.fst := by
  induction fields with
  | nil => rfl
  | cons field rest ih => simp [Value.mapFloatsFields, ih]

/-- An object whose fractions are changed had the same keys before. -/
theorem nodup_mapFloats {change : String → String} {value : Value}
    (distinct : ∀ fields, value = .object fields → (fields.map Prod.fst).Nodup) :
    ∀ fields, value.mapFloats change = .object fields → (fields.map Prod.fst).Nodup := by
  intro fields changed
  cases value with
  | object held =>
    rw [Value.mapFloats, Value.object.injEq] at changed
    rw [← changed, keys_mapFloats]
    exact distinct held rfl
  | number count => cases count <;> cases changed
  | _ => cases changed

/-- A usage object that reaches Anthropic by way of a chat reads as the original. -/
theorem extractUsage_throughChat {counters : Value} (usageOf : UsageOf RS counters)
    (change : String → String) :
    extractUsage AM (openaiUsageToAm (some (merge .null ((usage counters CC).mapFloats change)))
      "prompt_tokens" "prompt_tokens_details") = extractUsage RS counters := by
  have openai : RS ≠ AM := by decide
  have chat : CC ≠ AM := by decide
  have differ : RS ≠ CC := by decide
  obtain ⟨own, -, -, details⟩ := @get_usage counters _ _ openai chat differ
  have ordered : (usage counters CC).KeysOrdered := by
    simp only [usage]
    split <;> split <;> (repeat apply Value.KeysOrdered.set) <;> exact Value.keysOrdered_obj _
  have distinct : ∀ fields, (usage counters CC).mapFloats change = .object fields →
      (fields.map Prod.fst).Nodup :=
    nodup_mapFloats fun fields isObject => (isObject ▸ ordered).nodup
  have nested : ∀ fields, ((usage counters CC).mapFloats change).get CC.keys.details =
      some (.object fields) → (fields.map Prod.fst).Nodup := by
    intro fields found
    rw [Value.get_mapFloats, details] at found
    obtain ⟨inner, there, changed⟩ := Option.map_eq_some_iff.mp found
    refine nodup_mapFloats (fun fields isObject => ?_) fields changed
    exact usageOf.distinct [RS.keys.details] fields (by simp [there, isObject])
  obtain ⟨kept, same⟩ := extractUsage_merge (own.mapFloats change) chat distinct nested
  have read := extractUsage_openaiUsageToAm kept chat
  refine read.trans (same.trans ?_)
  rw [extractUsage_mapFloats]
  exact extractUsage_usage (usageOf.own openai) openai chat differ

end Merging

end Aipass.Conversion
