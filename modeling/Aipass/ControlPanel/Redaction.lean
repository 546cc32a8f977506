import Aipass.Base.Lowercase
import Aipass.Base.Replace
import Aipass.Base.Result
import Aipass.Base.Sorting
import Aipass.Server.Providers

/-!
# Redaction for the panel

Logs and previews go to the panel after the current credentials have been removed from them: the
tokens of the routes, the headers of the targets, and the keys and headers of the providers. Each
is replaced in every string of the JSON value, in the order in which the configuration and the vault
list them. The credentials of a provider are left out if they cannot be read.
-/
namespace Aipass.ControlPanel.Redaction

/-- A file of a provider record: the identifier in its path, and the title and the record in it. -/
structure RecordFile where
  id : Uuid
  title : List Char
  record : Except Server.VaultError Server.ProviderRecord

/-- What redaction reads of the vault. -/
structure Vault where
  /-- `Vault::ensure_sync_ready`. -/
  syncReady : Except Server.VaultError Unit
  /-- The files that `Vault::record_paths` lists. -/
  files : List RecordFile
  distinct : (files.map RecordFile.id).Nodup

/-- `Vault::decrypt_provider_path` of `Vault::record_path`. -/
def Vault.decryptProviderPath (vault : Vault) (id : Uuid) :
    Except Server.VaultError Server.ProviderRecord :=
  match vault.files.find? fun file => file.id = id with
  | some file => file.record
  | none => .error .recordNotFound

/-- The title and the record in a file, if it can be read. -/
def RecordFile.read (file : RecordFile) :
    Except Server.VaultError (List Char × Server.ProviderRecord) := do
  let record ← file.record
  return (file.title, record)

/-- `Vault::list_provider_summaries`. -/
def Vault.listProviderSummaries (table : Text.Lowercase) (vault : Vault) :
    Except Server.VaultError (List Server.EntrySummary) := do
  let records ← vault.files.mapM RecordFile.read
  let live := records.filter fun read =>
    read.2.entry.deletedAt.isNone && read.2.entry.archivedAt.isNone
  return (sortByKey (fun read => Text.lowercase table read.1) live).map fun read => read.2.entry

/-- `Vault::runtime_provider_credentials`: the secret and the headers. -/
def Vault.runtimeProviderCredentials (vault : Vault) (id : Uuid) (secretId : String) :
    Except Server.VaultError (String × List (String × String)) := do
  vault.syncReady
  let record ← vault.decryptProviderPath id
  refuseIf (record.entry.archivedAt.isSome || record.entry.deletedAt.isSome) .recordNotFound
  let secret ← okOr .recordNotFound (record.secrets secretId)
  return (secret, record.headers)

mutual

/-- A value with every string changed. -/
def mapStrings (change : String → String) : Value → Value
  | .null => .null
  | .bool value => .bool value
  | .number value => .number value
  | .string text => .string (change text)
  | .array values => .array (mapStringsItems change values)
  | .object values => .object (mapStringsFields change values)

/-- The items of an array with every string changed. -/
def mapStringsItems (change : String → String) : List Value → List Value
  | [] => []
  | value :: rest => mapStrings change value :: mapStringsItems change rest

/-- The fields of an object with every string changed. -/
def mapStringsFields (change : String → String) :
    List (String × Value) → List (String × Value)
  | [] => []
  | (key, value) :: rest => (key, mapStrings change value) :: mapStringsFields change rest

end

/-- What a credential is replaced by. -/
def redacted : String := "[redacted]"

/-- `remove`: a credential is replaced in every string. -/
def remove (value : Value) (secret : String) : Value :=
  if secret = "" then value else mapStrings (Text.replace secret redacted) value

/-- The part of `redact` that removes what a route carries. -/
def removeRoute (value : Value) (route : Server.ProxyRouteConfig) : Value :=
  route.targets.foldl
    (fun value target => target.headers.foldl (fun value header => remove value header.2) value)
    (remove value route.token)

/-- The part of `redact` that removes what is read for an entry. -/
def removeEntry (vault : Vault) (value : Value) (entry : Server.EntrySummary) : Value :=
  entry.secretRefs.foldl
    (fun value secret =>
      match vault.runtimeProviderCredentials entry.id secret.id with
      | .ok (secret, headers) =>
        headers.foldl (fun value header => remove value header.2) (remove value secret)
      | .error _ => value)
    value

/-- `redact`. -/
def redact (table : Text.Lowercase) (vault : Vault) (config : Server.ProxyConfig) (value : Value) :
    Except Server.ServiceError Value := do
  let value := config.routes.foldl removeRoute value
  let entries ← (vault.listProviderSummaries table).mapError Server.mapVaultError
  return entries.foldl (removeEntry vault) value

mutual

/-- The strings of a value, at every depth. -/
def strings : Value → List String
  | .null | .bool _ | .number _ => []
  | .string text => [text]
  | .array values => stringsItems values
  | .object values => stringsFields values

/-- The strings of the items of an array. -/
def stringsItems : List Value → List String
  | [] => []
  | value :: rest => strings value ++ stringsItems rest

/-- The strings of the fields of an object. -/
def stringsFields : List (String × Value) → List String
  | [] => []
  | (_, value) :: rest => strings value ++ stringsFields rest

end

mutual

/-- The keys in a value, at every depth. -/
def keys : Value → List String
  | .null | .bool _ | .number _ | .string _ => []
  | .array values => keysItems values
  | .object values => keysFields values

/-- The keys in the items of an array. -/
def keysItems : List Value → List String
  | [] => []
  | value :: rest => keys value ++ keysItems rest

/-- The keys of the fields of an object and in them. -/
def keysFields : List (String × Value) → List String
  | [] => []
  | (key, value) :: rest => key :: (keys value ++ keysFields rest)

end

/-- What is replaced in a string when a credential is removed. -/
def removeText (text secret : String) : String :=
  if secret = "" then text else Text.replace secret redacted text

/-- What `redact` removes of a route, in its order. -/
def routeSecrets (route : Server.ProxyRouteConfig) : List String :=
  route.token :: route.targets.flatMap fun target => target.headers.map Prod.snd

/-- What `redact` removes of an entry, in its order. -/
def entrySecrets (vault : Vault) (entry : Server.EntrySummary) : List String :=
  entry.secretRefs.flatMap fun secret =>
    match vault.runtimeProviderCredentials entry.id secret.id with
    | .ok (secret, headers) => secret :: headers.map Prod.snd
    | .error _ => []

/-- What `redact` removes, in its order. -/
def removed (vault : Vault) (config : Server.ProxyConfig) (entries : List Server.EntrySummary) :
    List String :=
  config.routes.flatMap routeSecrets ++ entries.flatMap (entrySecrets vault)

/-! ## Strings -/

mutual

/-- Changes of strings compose. -/
theorem mapStrings_mapStrings (change other : String → String) : ∀ value : Value,
    mapStrings other (mapStrings change value) = mapStrings (other ∘ change) value
  | .null | .bool _ | .number _ | .string _ => rfl
  | .array values => congrArg Value.array (mapStringsItems_mapStringsItems change other values)
  | .object values => congrArg Value.object (mapStringsFields_mapStringsFields change other values)

/-- Changes of the strings of items compose. -/
theorem mapStringsItems_mapStringsItems (change other : String → String) :
    ∀ values : List Value, mapStringsItems other (mapStringsItems change values) =
      mapStringsItems (other ∘ change) values
  | [] => rfl
  | value :: rest => by
    rw [mapStringsItems, mapStringsItems, mapStringsItems, mapStrings_mapStrings change other value,
      mapStringsItems_mapStringsItems change other rest]

/-- Changes of the strings of fields compose. -/
theorem mapStringsFields_mapStringsFields (change other : String → String) :
    ∀ values : List (String × Value), mapStringsFields other (mapStringsFields change values) =
      mapStringsFields (other ∘ change) values
  | [] => rfl
  | (key, value) :: rest => by
    rw [mapStringsFields, mapStringsFields, mapStringsFields,
      mapStrings_mapStrings change other value, mapStringsFields_mapStringsFields change other rest]

end

mutual

/-- A change of the strings of a value depends on these strings alone. -/
theorem mapStrings_congr {change other : String → String} : ∀ {value : Value},
    (∀ text ∈ strings value, change text = other text) →
      mapStrings change value = mapStrings other value
  | .null, _ | .bool _, _ | .number _, _ => rfl
  | .string text, same => congrArg Value.string (same text List.mem_cons_self)
  | .array _, same => congrArg Value.array (mapStringsItems_congr same)
  | .object _, same => congrArg Value.object (mapStringsFields_congr same)

/-- A change of the strings of items depends on these strings alone. -/
theorem mapStringsItems_congr {change other : String → String} : ∀ {values : List Value},
    (∀ text ∈ stringsItems values, change text = other text) →
      mapStringsItems change values = mapStringsItems other values
  | [], _ => rfl
  | value :: rest, same => by
    rw [mapStringsItems, mapStringsItems,
      mapStrings_congr fun text inside => same text (List.mem_append_left _ inside),
      mapStringsItems_congr fun text inside => same text (List.mem_append_right _ inside)]

/-- A change of the strings of fields depends on these strings alone. -/
theorem mapStringsFields_congr {change other : String → String} :
    ∀ {values : List (String × Value)},
    (∀ text ∈ stringsFields values, change text = other text) →
      mapStringsFields change values = mapStringsFields other values
  | [], _ => rfl
  | (key, value) :: rest, same => by
    rw [mapStringsFields, mapStringsFields,
      mapStrings_congr fun text inside => same text (List.mem_append_left _ inside),
      mapStringsFields_congr fun text inside => same text (List.mem_append_right _ inside)]

end

mutual

/-- Changing no string changes nothing. -/
theorem mapStrings_id : ∀ value : Value, mapStrings id value = value
  | .null | .bool _ | .number _ | .string _ => rfl
  | .array values => congrArg Value.array (mapStringsItems_id values)
  | .object values => congrArg Value.object (mapStringsFields_id values)

/-- Changing no string changes no item. -/
theorem mapStringsItems_id : ∀ values : List Value, mapStringsItems id values = values
  | [] => rfl
  | value :: rest => by rw [mapStringsItems, mapStrings_id value, mapStringsItems_id rest]

/-- Changing no string changes no field. -/
theorem mapStringsFields_id :
    ∀ values : List (String × Value), mapStringsFields id values = values
  | [] => rfl
  | (key, value) :: rest => by rw [mapStringsFields, mapStrings_id value, mapStringsFields_id rest]

end

/-! ## What is removed -/

variable {table : Text.Lowercase} {vault : Vault} {config : Server.ProxyConfig} {value : Value}

/-- A credential is removed from each string. -/
theorem remove_eq (value : Value) (secret : String) :
    remove value secret = mapStrings (removeText · secret) value := by
  by_cases empty : secret = ""
  · have same : (removeText · secret) = id := by
      funext text
      rw [removeText, if_pos empty, id]
    rw [remove, if_pos empty, same, mapStrings_id]
  · have same : (removeText · secret) = Text.replace secret redacted := by
      funext text
      rw [removeText, if_neg empty]
    rw [remove, if_neg empty, same]

/-- Credentials are removed from each string, one after the other. -/
theorem foldl_remove (secrets : List String) (value : Value) :
    secrets.foldl remove value = mapStrings (secrets.foldl removeText ·) value := by
  induction secrets generalizing value with
  | nil => exact (mapStrings_id value).symm
  | cons secret secrets ih =>
    rw [List.foldl_cons, ih, remove_eq, mapStrings_mapStrings]
    rfl

/-- What a route carries is removed. -/
theorem removeRoute_eq (value : Value) (route : Server.ProxyRouteConfig) :
    removeRoute value route = (routeSecrets route).foldl remove value := by
  rw [removeRoute, routeSecrets, List.foldl_cons, List.foldl_flatMap]
  simp only [List.foldl_map]

/-- What is read for an entry is removed. -/
theorem removeEntry_eq (vault : Vault) (value : Value) (entry : Server.EntrySummary) :
    removeEntry vault value entry = (entrySecrets vault entry).foldl remove value := by
  rw [removeEntry, entrySecrets, List.foldl_flatMap]
  congr 1
  funext value secret
  cases vault.runtimeProviderCredentials entry.id secret.id with
  | error error => rfl
  | ok credentials => simp only [List.foldl_cons, List.foldl_map]

/-- Redaction removes credentials from each string, one after the other. -/
theorem redact_eq_ok {result : Value} :
    redact table vault config value = .ok result ↔
      ∃ entries, vault.listProviderSummaries table = .ok entries ∧
        result = mapStrings ((removed vault config entries).foldl removeText ·) value := by
  have routes : config.routes.foldl removeRoute value =
      (config.routes.flatMap routeSecrets).foldl remove value := by
    rw [List.foldl_flatMap]
    congr 1
    funext value route
    exact removeRoute_eq value route
  have all : ∀ entries : List Server.EntrySummary,
      entries.foldl (removeEntry vault) (config.routes.foldl removeRoute value) =
        mapStrings ((removed vault config entries).foldl removeText ·) value := by
    intro entries
    have each : removeEntry vault = fun value entry =>
        (entrySecrets vault entry).foldl remove value := by
      funext value entry
      exact removeEntry_eq vault value entry
    rw [each, ← List.foldl_flatMap, routes, ← List.foldl_append, foldl_remove]
    rfl
  simp only [redact, bind_eq_ok, mapError_eq_ok, all, pure, Except.pure, Except.ok.injEq]
  constructor
  · rintro ⟨entries, listed, same⟩
    exact ⟨entries, listed, same.symm⟩
  · rintro ⟨entries, listed, same⟩
    exact ⟨entries, listed, same.symm⟩

end Aipass.ControlPanel.Redaction
