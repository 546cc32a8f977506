import Aipass.Browser.Lookup
import Aipass.ControlPanel.Redaction

/-!
# What redaction leaves

Redaction is traced: every character of a string is marked with its place, and what a credential is
replaced by with none. Where the current credentials do not disturb each other in a string, and none
of them is missing, the characters left are those that belong to no occurrence of a current
credential, in whatever order the routes, their targets and the providers are listed.
-/
namespace Aipass.ControlPanel.Redaction

/-- What a credential is replaced by, marked with no place. -/
def marker : Replace.Marked Char (Option ℕ) := redacted.toList.map fun char => (char, none)

/-- The removal of credentials from a string whose characters are marked with their places. -/
def trace (secrets : List String) (text : String) : Replace.Marked Char (Option ℕ) :=
  Replace.replaceAll marker (secrets.map String.toList) (Replace.number 0 text.toList)

/-- A traced string, without the marks. -/
def unmarked (text : Replace.Marked Char (Option ℕ)) : String := String.ofList (Replace.chars text)

/-- The entries of providers that are not deleted. -/
def Vault.providers (vault : Vault) : List Server.EntrySummary :=
  vault.files.filterMap fun file =>
    match file.record with
    | .ok record => if record.entry.deletedAt.isSome then none else some record.entry
    | .error _ => none

/-- The secret and the headers of a key of a provider that is not deleted. -/
def Vault.credentials (vault : Vault) (id : Uuid) (secretId : String) : List String :=
  match vault.decryptProviderPath id with
  | .ok record =>
    if record.entry.deletedAt.isSome then []
    else match record.secrets secretId with
      | some secret => secret :: record.headers.map Prod.snd
      | none => []
  | .error _ => []

/-- The current credentials: of the routes, of their targets, and of the providers that a target may
use, archived or not. -/
def current (vault : Vault) (config : Server.ProxyConfig) : List String :=
  (config.routes.flatMap routeSecrets ++ vault.providers.flatMap fun entry =>
    entry.secretRefs.flatMap fun secret => vault.credentials entry.id secret.id).filter (· ≠ "")

/-- What a file holds, but for the title. -/
def RecordFile.held (file : RecordFile) : Uuid × Except Server.VaultError Server.ProviderRecord :=
  (file.id, file.record)

/-- Two vaults hold the same records and list them in any two orders. -/
structure Vault.Rearranged (vault other : Vault) : Prop where
  syncReady : other.syncReady = vault.syncReady
  files : (other.files.map RecordFile.held).Perm (vault.files.map RecordFile.held)

/-- Two routes have the same targets in any two orders. -/
def RouteRearranged (route other : Server.ProxyRouteConfig) : Prop :=
  ∃ targets, targets.Perm route.targets ∧ other = { route with targets }

/-- Two configurations have the same routes and targets in any two orders. -/
def ConfigRearranged (config other : Server.ProxyConfig) : Prop :=
  ∃ middle routes, middle.Perm config.routes ∧ List.Forall₂ RouteRearranged middle routes ∧
    other = { config with routes }

/-- After redaction no string keeps a character of a current credential, every string keeps all
others, and the order in which credentials are listed does not matter. -/
def Clean (table : Text.Lowercase) (vault : Vault) (config : Server.ProxyConfig) (value : Value) :
    Prop :=
  ∀ result, redact table vault config value = .ok result →
    (∃ entries, vault.listProviderSummaries table = .ok entries ∧
      result = mapStrings (unmarked ∘ trace (removed vault config entries)) value ∧
      ∀ text ∈ strings value, Replace.survivors (trace (removed vault config entries) text) =
        Replace.uncovered ((current vault config).map String.toList) text.toList) ∧
    (∀ key ∈ keys value, ∀ secret ∈ current vault config, ¬ secret.toList <:+: key.toList) ∧
    ∀ otherVault otherConfig, vault.Rearranged otherVault → ConfigRearranged config otherConfig →
      redact table otherVault otherConfig value = .ok result

/-- No key holds a current credential, and however the credentials are listed, they can be removed
from each string without disturbing each other. -/
structure Harmless (table : Text.Lowercase) (vault : Vault) (config : Server.ProxyConfig)
    (value : Value) : Prop where
  keys : ∀ key ∈ keys value, ∀ secret ∈ current vault config, ¬ secret.toList <:+: key.toList
  strings : ∀ otherVault otherConfig entries, vault.Rearranged otherVault →
    ConfigRearranged config otherConfig → otherVault.listProviderSummaries table = .ok entries →
    ∀ text ∈ strings value, Replace.Undisturbed redacted.toList
      ((removed otherVault otherConfig entries).map String.toList)
      ((current vault config).map String.toList) text.toList

variable {table : Text.Lowercase} {vault other : Vault} {config otherConfig : Server.ProxyConfig}
  {value : Value}

/-! ## Tracing -/

/-- A text has a lead to be removed if it starts with it. -/
theorem isSome_stripPrefix {lead text : List Char} :
    (Text.stripPrefix lead text).isSome ↔ lead <+: text := by
  constructor
  · intro some_
    obtain ⟨rest, left⟩ := Option.isSome_iff_exists.mp some_
    exact ⟨rest, (Text.eq_of_stripPrefix left).symm⟩
  · rintro ⟨rest, rfl⟩
    rw [Text.stripPrefix_append]
    rfl

/-- Replacing goes by the characters. -/
theorem chars_replaceFrom {τ : Type} (word : List Char) (marker : Replace.Marked Char τ)
    (skip : ℕ) (text : Replace.Marked Char τ) :
    Replace.chars (Replace.replaceFrom word marker skip text) =
      Text.replaceFrom word (Replace.chars marker) skip (Replace.chars text) := by
  induction text generalizing skip with
  | nil => cases skip <;> rfl
  | cons char text ih =>
    cases skip with
    | succ skip => exact ih skip
    | zero =>
      rw [Replace.replaceFrom, Replace.chars_cons, Text.replaceFrom]
      by_cases here : word <+: char.1 :: Replace.chars text
      · rw [if_pos here, if_pos (isSome_stripPrefix.mpr here), Replace.chars_append, ih]
      · rw [if_neg here, if_neg (mt isSome_stripPrefix.mp here), Replace.chars_cons, ih]

/-- The characters of what credentials are replaced by. -/
theorem chars_marker : Replace.chars marker = redacted.toList := by
  rw [marker, Replace.chars, List.map_map]
  exact List.map_id _

/-- The characters of a traced string are those of the string. -/
theorem chars_replaceAll (secrets : List String) (text : Replace.Marked Char (Option ℕ)) :
    Replace.chars (Replace.replaceAll marker (secrets.map String.toList) text) =
      (secrets.foldl removeText (unmarked text)).toList := by
  induction secrets generalizing text with
  | nil => exact String.toList_ofList.symm
  | cons secret secrets ih =>
    rw [List.foldl_cons, List.map_cons, Replace.replaceAll, List.foldl_cons, ← Replace.replaceAll,
      ih]
    congr 2
    rw [Replace.replace, removeText]
    by_cases empty : secret = ""
    · rw [if_pos empty, if_pos (by rw [empty]; rfl)]
    · have some_ : secret.toList ≠ [] := by simpa using empty
      rw [if_neg empty, if_neg some_, unmarked, chars_replaceFrom, chars_marker, Text.replace,
        unmarked, String.toList_ofList]

/-- A traced string is the string. -/
theorem unmarked_trace (secrets : List String) (text : String) :
    unmarked (trace secrets text) = secrets.foldl removeText text := by
  have start : unmarked (Replace.number 0 text.toList) = text := by
    rw [unmarked, Replace.chars_number, String.ofList_toList]
  rw [unmarked, trace, chars_replaceAll, start, String.ofList_toList]

/-! ## Rearranging -/

/-- A file is found by the identifier in its path. -/
theorem decryptProviderPath_of_mem {id : Uuid}
    {record : Except Server.VaultError Server.ProviderRecord}
    (listed : (id, record) ∈ vault.files.map RecordFile.held) :
    vault.decryptProviderPath id = record := by
  obtain ⟨file, inside, held⟩ := List.mem_map.mp listed
  obtain ⟨rfl, rfl⟩ := Prod.mk.inj held
  rw [Vault.decryptProviderPath]
  cases found : vault.files.find? fun other => other.id = file.id with
  | none => simpa using List.find?_eq_none.mp found file inside
  | some other =>
    have sameId : other.id = file.id := by simpa using List.find?_some found
    have same : other = file :=
      List.inj_on_of_nodup_map vault.distinct (List.mem_of_find?_eq_some found) inside sameId
    rw [same]

/-- No file is found by an identifier that is in no path. -/
theorem decryptProviderPath_of_not_mem {id : Uuid}
    (absent : ∀ record, (id, record) ∉ vault.files.map RecordFile.held) :
    vault.decryptProviderPath id = .error .recordNotFound := by
  have none_ : vault.files.find? (fun file => file.id = id) = none := by
    rw [List.find?_eq_none]
    intro file inside same
    have sameId : file.id = id := by simpa using same
    exact absent file.record (List.mem_map.mpr ⟨file, inside, by rw [RecordFile.held, sameId]⟩)
  rw [Vault.decryptProviderPath, none_]

namespace Vault.Rearranged

/-- Records are read from any arrangement alike. -/
theorem decryptProviderPath (rearranged : vault.Rearranged other) (id : Uuid) :
    other.decryptProviderPath id = vault.decryptProviderPath id := by
  by_cases listed : ∃ record, (id, record) ∈ vault.files.map RecordFile.held
  · obtain ⟨record, inside⟩ := listed
    rw [decryptProviderPath_of_mem inside,
      decryptProviderPath_of_mem (rearranged.files.mem_iff.mpr inside)]
  · have absent : ∀ record, (id, record) ∉ vault.files.map RecordFile.held :=
      fun record inside => listed ⟨record, inside⟩
    rw [decryptProviderPath_of_not_mem absent, decryptProviderPath_of_not_mem
      fun record inside => absent record (rearranged.files.mem_iff.mp inside)]

/-- Credentials are read from any arrangement alike. -/
theorem credentials (rearranged : vault.Rearranged other) (id : Uuid) (secretId : String) :
    other.credentials id secretId = vault.credentials id secretId := by
  rw [Vault.credentials, rearranged.decryptProviderPath, Vault.credentials]

/-- What redaction removes of an entry is read from any arrangement alike. -/
theorem entrySecrets (rearranged : vault.Rearranged other) :
    entrySecrets other = entrySecrets vault := by
  funext entry
  simp only [Redaction.entrySecrets, Vault.runtimeProviderCredentials, rearranged.syncReady,
    rearranged.decryptProviderPath]

/-- Any arrangement has the same providers. -/
theorem mem_providers (rearranged : vault.Rearranged other) {entry : Server.EntrySummary} :
    entry ∈ other.providers ↔ entry ∈ vault.providers := by
  have byHeld : ∀ vault : Vault, vault.providers =
      (vault.files.map RecordFile.held).filterMap fun held =>
        match held.2 with
        | .ok record => if record.entry.deletedAt.isSome then none else some record.entry
        | .error _ => none := by
    intro vault
    rw [List.filterMap_map]
    rfl
  rw [byHeld, byHeld]
  exact (rearranged.files.filterMap _).mem_iff

/-- If the records of a vault can be read, they can in any arrangement. -/
theorem exists_listed (rearranged : vault.Rearranged other) {entries : List Server.EntrySummary}
    (listed : vault.listProviderSummaries table = .ok entries) :
    ∃ others, other.listProviderSummaries table = .ok others := by
  obtain ⟨records, reads, -⟩ := bind_eq_ok.mp listed
  have readable : ∀ file ∈ other.files, ∃ read, file.read = .ok read := by
    intro file inside
    have held : file.held ∈ vault.files.map RecordFile.held :=
      rearranged.files.mem_iff.mp (List.mem_map_of_mem inside)
    obtain ⟨source, isSource, same⟩ := List.mem_map.mp held
    obtain ⟨read, -, ok⟩ := exists_of_forall₂_left (forall₂_mapM reads) isSource
    obtain ⟨record, ok, -⟩ := bind_eq_ok.mp ok
    have sameRecord : file.record = source.record := congrArg Prod.snd same.symm
    exact ⟨(file.title, record), by rw [RecordFile.read, sameRecord, ok]; rfl⟩
  obtain ⟨others, reads⟩ : ∃ others, other.files.mapM RecordFile.read = .ok others := by
    obtain ok | ⟨error, failed⟩ := exists_ok_or_error (other.files.mapM RecordFile.read)
    · exact ok
    · obtain ⟨file, inside, fails⟩ := mapM_eq_error failed
      obtain ⟨read, ok⟩ := readable file inside
      rw [ok] at fails
      cases fails
  exact ⟨_, by rw [Vault.listProviderSummaries, reads]; rfl⟩

end Vault.Rearranged

/-- Routes with the same targets carry the same credentials. -/
theorem RouteRearranged.mem_routeSecrets {route otherRoute : Server.ProxyRouteConfig}
    (rearranged : RouteRearranged route otherRoute) {secret : String} :
    secret ∈ routeSecrets otherRoute ↔ secret ∈ routeSecrets route := by
  obtain ⟨targets, perm, rfl⟩ := rearranged
  simp only [routeSecrets, List.mem_cons, (perm.flatMap_right _).mem_iff]

/-- Rearranged routes carry the same credentials. -/
theorem ConfigRearranged.mem_routeSecrets (rearranged : ConfigRearranged config otherConfig)
    {secret : String} :
    secret ∈ otherConfig.routes.flatMap routeSecrets ↔
      secret ∈ config.routes.flatMap routeSecrets := by
  obtain ⟨middle, routes, perm, pairs, rfl⟩ := rearranged
  rw [← (perm.flatMap_right _).mem_iff, List.mem_flatMap, List.mem_flatMap]
  constructor
  · rintro ⟨route, inside, carries⟩
    obtain ⟨source, isSource, same⟩ := exists_of_forall₂_right pairs inside
    exact ⟨source, isSource, same.mem_routeSecrets.mp carries⟩
  · rintro ⟨route, inside, carries⟩
    obtain ⟨target, isTarget, same⟩ := exists_of_forall₂_left pairs inside
    exact ⟨target, isTarget, same.mem_routeSecrets.mpr carries⟩

/-- A current credential is not empty, and it is of a route, of a target or of a provider. -/
theorem mem_current {secret : String} :
    secret ∈ current vault config ↔ secret ≠ "" ∧
      (secret ∈ config.routes.flatMap routeSecrets ∨ ∃ entry ∈ vault.providers,
        ∃ key ∈ entry.secretRefs, secret ∈ vault.credentials entry.id key.id) := by
  simp only [current, List.mem_filter, List.mem_append, List.mem_flatMap, decide_eq_true_eq,
    and_comm]

/-- Any arrangement has the same current credentials. -/
theorem mem_current_rearranged (vaults : vault.Rearranged other)
    (configs : ConfigRearranged config otherConfig) {secret : String} :
    secret ∈ current other otherConfig ↔ secret ∈ current vault config := by
  simp only [mem_current, configs.mem_routeSecrets, vaults.mem_providers, vaults.credentials]

/-- Any arrangement is one of itself. -/
theorem Vault.Rearranged.refl (vault : Vault) : vault.Rearranged vault := ⟨rfl, .refl _⟩

/-- Any configuration is an arrangement of itself. -/
theorem ConfigRearranged.refl (config : Server.ProxyConfig) : ConfigRearranged config config :=
  ⟨config.routes, config.routes, .refl _,
    List.forall₂_same.mpr fun route _ => ⟨route.targets, .refl _, rfl⟩, rfl⟩

/-! ## What is removed is current -/

/-- An entry that is listed is that of a provider. -/
theorem mem_providers_of_listed {entries : List Server.EntrySummary}
    (listed : vault.listProviderSummaries table = .ok entries) {entry : Server.EntrySummary}
    (inside : entry ∈ entries) : entry ∈ vault.providers := by
  obtain ⟨records, reads, same⟩ := bind_eq_ok.mp listed
  rw [← Except.ok.inj same] at inside
  obtain ⟨⟨title, record⟩, sorted, rfl⟩ := List.mem_map.mp inside
  obtain ⟨isRecord, live⟩ := List.mem_filter.mp ((sortByKey_perm _ _).mem_iff.mp sorted)
  obtain ⟨file, isFile, ok⟩ := mem_mapM reads isRecord
  obtain ⟨read, isRead, same⟩ := bind_eq_ok.mp ok
  obtain rfl : read = record := congrArg Prod.snd (Except.ok.inj same)
  have kept : read.entry.deletedAt.isSome = false := by
    simp only [Bool.and_eq_true, Option.isNone_iff_eq_none] at live
    simp [live.1]
  exact List.mem_filterMap.mpr ⟨file, isFile, by simp [isRead, kept]⟩

/-- What can be read for a key are its credentials. -/
theorem credentials_of_runtime {id : Uuid} {secretId secret : String}
    {headers : List (String × String)}
    (reads : vault.runtimeProviderCredentials id secretId = .ok (secret, headers)) :
    vault.credentials id secretId = secret :: headers.map Prod.snd := by
  obtain ⟨-, -, reads⟩ := bind_eq_ok.mp reads
  obtain ⟨record, isRecord, reads⟩ := bind_eq_ok.mp reads
  obtain ⟨passed, live, reads⟩ := bind_eq_ok.mp reads
  obtain ⟨held, isHeld, same⟩ := bind_eq_ok.mp reads
  obtain ⟨rfl, rfl⟩ := Prod.mk.inj (Except.ok.inj same)
  have kept : record.entry.deletedAt.isSome = false :=
    (Bool.or_eq_false_iff.mp (refuseIf_eq_ok.mp live)).2
  simp [Vault.credentials, isRecord, kept, okOr_eq_ok.mp isHeld]

/-- What is removed is current, if it is not empty. -/
theorem mem_current_of_removed {entries : List Server.EntrySummary}
    (listed : vault.listProviderSummaries table = .ok entries) {secret : String}
    (inside : secret ∈ removed vault config entries) (some_ : secret ≠ "") :
    secret ∈ current vault config := by
  refine mem_current.mpr ⟨some_, ?_⟩
  obtain ofRoute | ofEntry := List.mem_append.mp inside
  · exact .inl ofRoute
  · obtain ⟨entry, isEntry, carries⟩ := List.mem_flatMap.mp ofEntry
    obtain ⟨key, isKey, reads⟩ := List.mem_flatMap.mp carries
    refine .inr ⟨entry, mem_providers_of_listed listed isEntry, key, isKey, ?_⟩
    cases found : vault.runtimeProviderCredentials entry.id key.id with
    | error error => simp [found] at reads
    | ok credentials =>
      rw [credentials_of_runtime found]
      simpa [found] using reads

/-! ## What is left -/

/-- No current credential is empty. -/
theorem nil_notMem_current : [] ∉ (current vault config).map String.toList := by
  intro inside
  obtain ⟨secret, isCurrent, empty⟩ := List.mem_map.mp inside
  exact (mem_current.mp isCurrent).1 (String.toList_eq_nil_iff.mp empty)

/-- What is removed in any arrangement is current, if it is not empty. -/
theorem known_of_listed {entries : List Server.EntrySummary} (vaults : vault.Rearranged other)
    (configs : ConfigRearranged config otherConfig)
    (listed : other.listProviderSummaries table = .ok entries) :
    ∀ word ∈ (removed other otherConfig entries).map String.toList, word ≠ [] →
      word ∈ (current vault config).map String.toList := by
  intro word inside some_
  obtain ⟨secret, isRemoved, rfl⟩ := List.mem_map.mp inside
  have nonempty : secret ≠ "" := fun empty => some_ (String.toList_eq_nil_iff.mpr empty)
  have isCurrent := mem_current_of_removed listed isRemoved nonempty
  exact List.mem_map_of_mem ((mem_current_rearranged vaults configs).mp isCurrent)

/-- A provider with one key and one header. -/
def sampleRecord (secret header : String) : Server.ProviderRecord where
  entry :=
    { id := 1
      providerKind := .official
      providerId := none
      credentialKind := .api
      interfaceType := .openAiCompatible
      authScheme := .bearer
      endpoints := []
      secretRefs := [⟨"key", "primary", none, none, none⟩]
      gatewayGroup := none
      maxConcurrentRequests := none
      supportsWebsockets := none
      archivedAt := none
      deletedAt := none }
  headers := [("Authorization", header)]
  secrets id := if id = "key" then some secret else none

/-- A vault of one provider. -/
def sampleVault (secret header : String) : Vault where
  syncReady := .ok ()
  files := [⟨1, [], .ok (sampleRecord secret header)⟩]
  distinct := List.nodup_singleton 1

/-- A configuration with one route and no targets. -/
def sampleConfig (token : String) : Server.ProxyConfig :=
  { Server.ProxyConfig.default with
    routes :=
      [{ id := 2
         name := "route"
         token
         inboundProtocol := .openAiResponses
         upstreamProtocol := .openAiResponses
         conversionEnabled := false
         strategy := .fallback
         targets := []
         retry := ⟨1, 1, 1, 1, 1, 1, false, 0, false, 0, 0, 0⟩
         enabled := true }] }

/-- However the credentials of one route and one provider are listed, they are removed in the same
order. -/
theorem removed_sample {secret header token : String} {entries : List Server.EntrySummary}
    (vaults : (sampleVault secret header).Rearranged other)
    (configs : ConfigRearranged (sampleConfig token) otherConfig)
    (listed : other.listProviderSummaries table = .ok entries) :
    removed other otherConfig entries = [token, secret, header] := by
  obtain ⟨middle, routes, perm, pairs, rfl⟩ := configs
  obtain rfl := List.perm_singleton.mp perm
  cases pairs with
  | cons same none_ =>
    cases none_
    obtain ⟨targets, perm, rfl⟩ := same
    obtain rfl := List.perm_nil.mp perm
    obtain ⟨file, files, held⟩ :=
      List.map_eq_singleton_iff.mp (List.perm_singleton.mp vaults.files)
    have record : file.record = .ok (sampleRecord secret header) := congrArg Prod.snd held
    have only : [(sampleRecord secret header).entry] = entries := by
      rw [Vault.listProviderSummaries, files, List.mapM_cons, RecordFile.read, record] at listed
      exact Except.ok.inj listed
    rw [removed, vaults.entrySecrets, ← only]
    rfl

/-- The credentials of one route and one provider. -/
theorem current_sample {secret header token : String} (some_ : "" ∉ [token, secret, header]) :
    current (sampleVault secret header) (sampleConfig token) = [token, secret, header] := by
  have all : current (sampleVault secret header) (sampleConfig token) =
      [token, secret, header].filter (· ≠ "") := rfl
  rw [all, List.filter_eq_self]
  intro credential inside
  rw [decide_eq_true_eq]
  rintro rfl
  exact some_ inside

end Aipass.ControlPanel.Redaction
