import Aipass.Records.Edits

/-!
# Coherent records

A record is coherent if its keys have different identifiers and different labels, the secrets are
those of exactly these keys, and every key shows the mask and the fingerprint of its secret.
Whatever an operation does to the keys of a coherent record leaves it coherent.
-/
namespace Aipass.Records

variable (fingerprint : String → String)

/-- A key shows the mask and the fingerprint of a secret. -/
def SecretRef.Shows (secretRef : SecretRef) (secret : String) : Prop :=
  secretRef.masked = maskSecret secret ∧ secretRef.fingerprint = fingerprint secret

/-- Keys and secrets are coherent. -/
structure Coherent (secretRefs : List SecretRef) (secrets : Table String String) : Prop where
  /-- The identifiers are pairwise different. -/
  ids : (secretRefs.map SecretRef.id).Nodup
  /-- The labels are pairwise different. -/
  labels : (secretRefs.map SecretRef.label).Nodup
  /-- There are secrets for exactly the keys. -/
  stored : ∀ id : String, secrets[id]?.isSome ↔ id ∈ secretRefs.map SecretRef.id
  /-- Every key shows its secret. -/
  shows : ∀ secretRef ∈ secretRefs, ∀ secret, secrets[secretRef.id]? = some secret →
    secretRef.Shows fingerprint secret

/-- What an operation may do to the keys and secrets of a record, given an identifier it draws. -/
inductive KeyChange (drawn : String) (record : ProviderRecordPlaintext) :
    List SecretRef → Table String String → Prop
  | kept : KeyChange drawn record record.entry.secretRefs record.secrets
  | added {secretRef : SecretRef} {secret : String} (isDrawn : secretRef.id = drawn)
      (new : secretRef.label ∉ record.entry.secretRefs.map SecretRef.label)
      (shows : secretRef.Shows fingerprint secret) :
      KeyChange drawn record (record.entry.secretRefs ++ [secretRef])
        (record.secrets.insert secretRef.id secret)
  | described {before after : List SecretRef} {old secretRef : SecretRef}
      (parts : record.entry.secretRefs = before ++ old :: after) (sameId : secretRef.id = old.id)
      (sameMask : secretRef.masked = old.masked)
      (sameFingerprint : secretRef.fingerprint = old.fingerprint)
      (new : secretRef.label ∉ (before ++ after).map SecretRef.label) :
      KeyChange drawn record (before ++ secretRef :: after) record.secrets
  | replaced {before after : List SecretRef} {old secretRef : SecretRef} {secret : String}
      (parts : record.entry.secretRefs = before ++ old :: after) (sameId : secretRef.id = old.id)
      (shows : secretRef.Shows fingerprint secret)
      (new : secretRef.label ∉ (before ++ after).map SecretRef.label) :
      KeyChange drawn record (before ++ secretRef :: after) (record.secrets.insert old.id secret)
  | removed (id : String) :
      KeyChange drawn record (record.entry.secretRefs.filter fun secretRef => secretRef.id ≠ id)
        (record.secrets.erase id)

/-- A coherent record. -/
def ProviderRecordPlaintext.Coherent (record : ProviderRecordPlaintext) : Prop :=
  Records.Coherent fingerprint record.entry.secretRefs record.secrets

/-- The identifiers of the keys of a record. -/
def ProviderRecordPlaintext.ids (record : ProviderRecordPlaintext) : List String :=
  record.entry.secretRefs.map SecretRef.id

variable {fingerprint} {record : ProviderRecordPlaintext} {drawn : String}
  {secretRefs : List SecretRef} {secrets : Table String String}

/-- A key under a new identifier and a new label, with its secret, keeps a record coherent. -/
theorem Coherent.added (coherent : Coherent fingerprint secretRefs secrets) {secretRef : SecretRef}
    {secret : String} (newId : secretRef.id ∉ secretRefs.map SecretRef.id)
    (newLabel : secretRef.label ∉ secretRefs.map SecretRef.label)
    (shows : secretRef.Shows fingerprint secret) :
    Coherent fingerprint (secretRefs ++ [secretRef]) (secrets.insert secretRef.id secret) where
  ids := by
    rw [List.map_append, List.map_singleton, List.nodup_append_comm, List.singleton_append,
      List.nodup_cons]
    exact ⟨newId, coherent.ids⟩
  labels := by
    rw [List.map_append, List.map_singleton, List.nodup_append_comm, List.singleton_append,
      List.nodup_cons]
    exact ⟨newLabel, coherent.labels⟩
  stored id := by
    rw [Table.get_insert, List.map_append, List.mem_append, List.map_singleton,
      List.mem_singleton, ← coherent.stored]
    by_cases same : secretRef.id = id
    · simp [same]
    · simp [same, Ne.symm same]
  shows := by
    intro listed inside held isHeld
    rw [Table.get_insert] at isHeld
    obtain old | new := List.mem_append.mp inside
    · have other : secretRef.id ≠ listed.id := by
        rintro same
        exact newId (same ▸ List.mem_map_of_mem old)
      rw [if_neg other] at isHeld
      exact coherent.shows listed old held isHeld
    · obtain rfl := List.mem_singleton.mp new
      rw [if_pos rfl] at isHeld
      exact Option.some.inj isHeld ▸ shows

/-- A key in the place of another, under its identifier, keeps a record coherent if it shows the
secret that is there then. -/
theorem Coherent.replaced {before after : List SecretRef} {old secretRef : SecretRef}
    {next : Table String String} {secret : String}
    (coherent : Coherent fingerprint (before ++ old :: after) secrets)
    (sameId : secretRef.id = old.id)
    (newLabel : secretRef.label ∉ (before ++ after).map SecretRef.label)
    (others : ∀ id, id ≠ old.id → next[id]? = secrets[id]?)
    (held : next[old.id]? = some secret) (shows : secretRef.Shows fingerprint secret) :
    Coherent fingerprint (before ++ secretRef :: after) next := by
  have sameIds : (before ++ secretRef :: after).map SecretRef.id =
      (before ++ old :: after).map SecretRef.id := by
    simp [sameId]
  constructor
  · rw [sameIds]
    exact coherent.ids
  · have rest : ((before ++ after).map SecretRef.label).Nodup := by
      have all := coherent.labels
      rw [List.map_append, List.map_cons, List.nodup_middle, List.nodup_cons] at all
      rw [List.map_append]
      exact all.2
    rw [List.map_append, List.map_cons, List.nodup_middle, List.nodup_cons, ← List.map_append]
    exact ⟨newLabel, rest⟩
  · intro id
    rw [sameIds, ← coherent.stored]
    by_cases same : id = old.id
    · have wasHeld : secrets[old.id]?.isSome := by
        rw [coherent.stored]
        simp
      rw [same, held]
      simp [wasHeld]
    · rw [others id same]
  · intro listed inside shown isShown
    have distinct := coherent.ids
    rw [List.map_append, List.map_cons, List.nodup_middle, List.nodup_cons,
      ← List.map_append] at distinct
    by_cases same : listed = secretRef
    · rw [same, sameId, held] at isShown
      rw [same]
      exact Option.some.inj isShown ▸ shows
    · have rest : listed ∈ before ++ after := by
        simp only [List.mem_append, List.mem_cons] at inside ⊢
        tauto
      have other : listed.id ≠ old.id := by
        rintro isOld
        exact distinct.1 (isOld ▸ List.mem_map_of_mem rest)
      rw [others _ other] at isShown
      refine coherent.shows listed ?_ shown isShown
      simp only [List.mem_append, List.mem_cons] at rest ⊢
      tauto

/-- A record without one of its keys and its secret is coherent. -/
theorem Coherent.removed (coherent : Coherent fingerprint secretRefs secrets) (id : String) :
    Coherent fingerprint (secretRefs.filter fun secretRef => secretRef.id ≠ id)
      (secrets.erase id) where
  ids := coherent.ids.sublist (List.filter_sublist.map _)
  labels := coherent.labels.sublist (List.filter_sublist.map _)
  stored key := by
    rw [Table.get_erase]
    by_cases same : id = key
    · simp [same]
    · rw [if_neg same, coherent.stored]
      simp only [List.mem_map, List.mem_filter, decide_eq_true_eq]
      constructor
      · rintro ⟨secretRef, inside, rfl⟩
        exact ⟨secretRef, ⟨inside, Ne.symm same⟩, rfl⟩
      · rintro ⟨secretRef, ⟨inside, -⟩, isKey⟩
        exact ⟨secretRef, inside, isKey⟩
  shows := by
    intro listed inside held isHeld
    obtain ⟨isListed, kept⟩ := List.mem_filter.mp inside
    have other : id ≠ listed.id := Ne.symm (of_decide_eq_true kept)
    rw [Table.get_erase, if_neg other] at isHeld
    exact coherent.shows listed isListed held isHeld

/-- Whatever an operation does to the keys of a coherent record leaves it coherent, if the
identifier it draws is new. -/
theorem KeyChange.coherent (change : KeyChange fingerprint drawn record secretRefs secrets)
    (coherent : record.Coherent fingerprint) (new : drawn ∉ record.ids) :
    Coherent fingerprint secretRefs secrets := by
  cases change with
  | kept => exact coherent
  | added isDrawn newLabel shows =>
    exact Coherent.added coherent (isDrawn ▸ new) newLabel shows
  | @described before after old secretRef parts sameId sameMask sameFingerprint newLabel =>
    rw [ProviderRecordPlaintext.Coherent, parts] at coherent
    have wasHeld : record.secrets[old.id]?.isSome := by
      rw [coherent.stored]
      simp
    obtain ⟨secret, held⟩ := Option.isSome_iff_exists.mp wasHeld
    obtain ⟨masked, shown⟩ := coherent.shows old (by simp) secret held
    exact coherent.replaced sameId newLabel (fun _ _ => rfl) held
      ⟨sameMask.trans masked, sameFingerprint.trans shown⟩
  | @replaced before after old secretRef secret parts sameId shows newLabel =>
    rw [ProviderRecordPlaintext.Coherent, parts] at coherent
    refine coherent.replaced sameId newLabel ?_ (by simp) shows
    intro id other
    rw [Table.get_insert, if_neg (Ne.symm other)]
  | removed id => exact Coherent.removed coherent id

/-- The keys of a changed record are those it had, but for the one under the identifier drawn. -/
theorem KeyChange.ids (change : KeyChange fingerprint drawn record secretRefs secrets) :
    ∀ id ∈ secretRefs.map SecretRef.id, id = drawn ∨ id ∈ record.ids := by
  intro id inside
  cases change with
  | kept => exact .inr inside
  | added isDrawn newLabel shows =>
    rw [List.map_append, List.mem_append, List.map_singleton, List.mem_singleton, isDrawn] at inside
    exact inside.symm
  | described parts sameId sameMask sameFingerprint newLabel =>
    rw [ProviderRecordPlaintext.ids, parts]
    simp_all
  | replaced parts sameId shows newLabel =>
    rw [ProviderRecordPlaintext.ids, parts]
    simp_all
  | removed gone =>
    obtain ⟨secretRef, isLeft, rfl⟩ := List.mem_map.mp inside
    exact .inr (List.mem_map_of_mem (List.mem_filter.mp isLeft).1)

/-- A change does to the keys of coherent records what an operation may do. -/
def Edit.Changes {α : Type} (fingerprint : String → String) (drawn : String) (edit : Edit α) :
    Prop :=
  ∀ record value next, record.Coherent fingerprint → edit record = .ok (value, some next) →
    KeyChange fingerprint drawn record next.entry.secretRefs next.secrets

/-! ## Keys of a record -/

/-- Metadata keep the identifier of a key. -/
@[simp] theorem id_applyTo (metadata : SecretMetadataInput) (secretRef : SecretRef) :
    (metadata.applyTo secretRef).id = secretRef.id := rfl

/-- Metadata keep what a key shows. -/
theorem shows_applyTo {metadata : SecretMetadataInput} {secretRef : SecretRef} {secret : String}
    (shows : secretRef.Shows fingerprint secret) :
    (metadata.applyTo secretRef).Shows fingerprint secret := shows

/-- A new key shows its secret. -/
theorem shows_new (id label secret : String) :
    (SecretRef.new fingerprint id label secret).Shows fingerprint secret := ⟨rfl, rfl⟩

/-- A key with a new secret shows it. -/
theorem shows_withSecret (secretRef : SecretRef) (secret : String) :
    (secretRef.withSecret fingerprint secret).Shows fingerprint secret := ⟨rfl, rfl⟩

/-- A change of the key at a position leaves those before and behind it. -/
theorem exists_modify {secretRefs : List SecretRef} {index : ℕ} {old : SecretRef}
    (found : secretRefs[index]? = some old) (change : SecretRef → SecretRef) :
    ∃ before after, secretRefs = before ++ old :: after ∧
      secretRefs.modify index change = before ++ change old :: after := by
  obtain ⟨inside, rfl⟩ := List.getElem?_eq_some_iff.mp found
  have behind : secretRefs.drop index = secretRefs[index] :: secretRefs.drop (index + 1) :=
    List.drop_eq_getElem_cons inside
  refine ⟨secretRefs.take index, secretRefs.drop (index + 1), ?_, ?_⟩
  · rw [← behind, List.take_append_drop]
  · rw [List.modify_eq_take_drop, behind]
    rfl

/-- No other key of a coherent record has the label of a key. -/
theorem ProviderRecordPlaintext.Coherent.label_notMem (coherent : record.Coherent fingerprint)
    {before after : List SecretRef} {old : SecretRef}
    (parts : record.entry.secretRefs = before ++ old :: after) :
    old.label ∉ (before ++ after).map SecretRef.label := by
  have distinct := coherent.labels
  rw [parts, List.map_append, List.map_cons, List.nodup_middle, List.nodup_cons] at distinct
  rw [List.map_append]
  exact distinct.1

/-- No other key of a coherent record has the identifier of a key. -/
theorem ProviderRecordPlaintext.Coherent.id_notMem (coherent : record.Coherent fingerprint)
    {before after : List SecretRef} {old : SecretRef}
    (parts : record.entry.secretRefs = before ++ old :: after) :
    old.id ∉ (before ++ after).map SecretRef.id := by
  have distinct := coherent.ids
  rw [parts, List.map_append, List.map_cons, List.nodup_middle, List.nodup_cons] at distinct
  rw [List.map_append]
  exact distinct.1

/-! ## What each operation does to the keys -/

/-- A new record is coherent, and its key is the one drawn. -/
theorem coherent_addProviderRecord (now : OffsetDateTime) (id : Uuid) (secretId : String)
    (input : ProviderEntryInput) (runtimeExtensions : Table String String) :
    let record := addProviderRecord fingerprint now id secretId input runtimeExtensions
    record.Coherent fingerprint ∧ record.ids = [secretId] := by
  refine ⟨⟨?_, ?_, ?_, ?_⟩, rfl⟩
  · simp [addProviderRecord]
  · simp [addProviderRecord]
  · intro key
    simp only [addProviderRecord, SecretRef.new, Table.get_insert, List.map_singleton,
      id_applyTo, List.mem_singleton]
    by_cases same : secretId = key
    · simp [same]
    · simp [same, Ne.symm same]
  · intro secretRef inside secret held
    obtain rfl := List.mem_singleton.mp inside
    have same : input.apiKey = secret := by
      simpa [addProviderRecord, SecretRef.new] using held
    exact same ▸ shows_applyTo (shows_new _ _ _)

/-- Adding a secret adds a key. -/
theorem addSecretWithMetadata_changes (now : OffsetDateTime) (secretId label secret : String)
    (metadata : SecretMetadataInput) :
    (addSecretWithMetadata fingerprint now secretId label secret metadata).Changes fingerprint
      secretId := by
  intro record value next coherent changed
  obtain ⟨passed, isNew, changed⟩ := bind_eq_ok.mp changed
  cases changed
  have new : label ∉ record.entry.secretRefs.map SecretRef.label := by
    intro inside
    obtain ⟨existing, isExisting, same⟩ := List.mem_map.mp inside
    have found := refuseIf_eq_ok.mp isNew
    rw [List.any_eq_false] at found
    exact found existing isExisting (decide_eq_true same)
  have shows : (metadata.applyTo (SecretRef.new fingerprint secretId label secret)).Shows
      fingerprint secret := shows_applyTo (shows_new _ _ _)
  exact .added rfl new shows

/-- Updating a secret replaces a key or its label. -/
theorem updateSecret_changes (now : OffsetDateTime) (secretId label : String)
    (secret : Option String) :
    (updateSecret fingerprint now secretId label secret).Changes fingerprint drawn := by
  intro record value next coherent changed
  obtain ⟨passed, isNew, changed⟩ := bind_eq_ok.mp changed
  obtain ⟨index, isIndex, changed⟩ := bind_eq_ok.mp changed
  have isFound : (record.entry.secretRefs.findIdx? fun existing => existing.id = secretId) =
      some index := okOr_eq_ok.mp isIndex
  obtain ⟨inside, isId, -⟩ := List.findIdx?_eq_some_iff_getElem.mp isFound
  obtain ⟨old, isOld⟩ : ∃ old, record.entry.secretRefs[index]? = some old :=
    ⟨_, List.getElem?_eq_getElem inside⟩
  have sameId : old.id = secretId := by
    rw [List.getElem?_eq_getElem inside, Option.some.injEq] at isOld
    rw [← isOld]
    exact of_decide_eq_true isId
  split at changed
  · cases changed
  · cases changed
    obtain ⟨before, after, parts, modified⟩ :=
      exists_modify isOld (SecretRef.updated fingerprint label secret)
    have new : label ∉ (before ++ after).map SecretRef.label := by
      intro used
      obtain ⟨existing, isOther, sameLabel⟩ := List.mem_map.mp used
      have listed : existing ∈ record.entry.secretRefs := by
        rw [parts]
        simp only [List.mem_append, List.mem_cons] at isOther ⊢
        tauto
      have otherId : existing.id ≠ secretId := by
        rintro isSame
        exact coherent.id_notMem parts (sameId.trans isSame.symm ▸ List.mem_map_of_mem isOther)
      have found := refuseIf_eq_ok.mp isNew
      rw [List.any_eq_false] at found
      exact found existing listed (by simp [otherId, sameLabel])
    cases secret with
    | none =>
      have described : KeyChange fingerprint drawn record
          (before ++ SecretRef.updated fingerprint label none old :: after) record.secrets :=
        .described parts rfl rfl rfl new
      rw [← modified] at described
      exact described
    | some secret =>
      have replaced : KeyChange fingerprint drawn record
          (before ++ SecretRef.updated fingerprint label (some secret) old :: after)
          (record.secrets.insert old.id secret) :=
        .replaced parts rfl (shows_withSecret _ _) new
      rw [← modified, sameId] at replaced
      exact replaced

/-- Setting the metadata of a key describes it. -/
theorem setSecretMetadata_changes (now : OffsetDateTime) (labelOrId : String)
    (metadata : SecretMetadataInput) :
    (setSecretMetadata now labelOrId metadata).Changes fingerprint drawn := by
  intro record value next coherent changed
  obtain ⟨index, -, changed⟩ := bind_eq_ok.mp changed
  obtain ⟨old, isOld, changed⟩ := bind_eq_ok.mp changed
  obtain ⟨before, after, parts, modified⟩ :=
    exists_modify (okOr_eq_ok.mp isOld) metadata.applyTo
  split at changed
  · cases changed
  · cases changed
    have new : old.label ∉ (before ++ after).map SecretRef.label := coherent.label_notMem parts
    have described : KeyChange fingerprint drawn record
        (before ++ metadata.applyTo old :: after) record.secrets :=
      .described parts rfl rfl rfl new
    rw [← modified] at described
    exact described

/-- Removing a secret removes a key. -/
theorem removeSecret_changes (now : OffsetDateTime) (labelOrId : String) :
    (removeSecret now labelOrId).Changes fingerprint drawn := by
  intro record value next coherent changed
  obtain ⟨index, -, changed⟩ := bind_eq_ok.mp changed
  obtain ⟨gone, -, changed⟩ := bind_eq_ok.mp changed
  obtain ⟨passed, -, changed⟩ := bind_eq_ok.mp changed
  cases changed
  exact .removed _

/-- Updating a provider replaces its first key, adds one if there is none, or keeps the keys. -/
theorem updateProvider_changes (now : OffsetDateTime) (id : Uuid)
    (input : ProviderEntryUpdateInput) :
    (updateProvider fingerprint now id drawn input).Changes fingerprint drawn := by
  intro record value next coherent changed
  obtain ⟨secretLabel, -, changed⟩ := bind_eq_ok.mp changed
  obtain ⟨passed, isNew, changed⟩ := bind_eq_ok.mp changed
  cases changed
  have unused := refuseIf_eq_ok.mp isNew
  rw [List.any_eq_false] at unused
  generalize input.apiKey.or record.secrets[
    (record.entry.secretRefs.head?.map SecretRef.id).getD drawn]? = apiKey
  cases apiKey with
  | none => exact .kept
  | some apiKey =>
    cases keys : record.entry.secretRefs with
    | nil =>
      let primary := input.secretMetadata.applyTo
        (SecretRef.new fingerprint drawn (secretLabel.getD "primary") apiKey)
      have new : primary.label ∉ record.entry.secretRefs.map SecretRef.label := by
        rw [keys]
        exact List.not_mem_nil
      have added : KeyChange fingerprint drawn record (record.entry.secretRefs ++ [primary])
          (record.secrets.insert drawn apiKey) :=
        .added rfl new (shows_applyTo (shows_new _ _ _))
      rw [keys] at added
      exact added
    | cons primary rest =>
      have parts : record.entry.secretRefs = [] ++ primary :: rest := keys
      have new : secretLabel.getD primary.label ∉ ([] ++ rest).map SecretRef.label := by
        cases secretLabel with
        | none => exact coherent.label_notMem parts
        | some label =>
          intro used
          obtain ⟨existing, inside, same⟩ := List.mem_map.mp used
          have behind : existing ∈ record.entry.secretRefs.drop 1 := by
            rw [keys]
            exact inside
          exact unused existing behind (decide_eq_true (congrArg some same))
      have replaced : KeyChange fingerprint drawn record
          ([] ++ primary.asPrimary fingerprint secretLabel apiKey input.secretMetadata :: rest)
          (record.secrets.insert primary.id apiKey) :=
        .replaced parts rfl (shows_applyTo (shows_withSecret _ _)) new
      exact replaced

/-- A change that leaves the keys and the secrets as they are. -/
theorem changes_of_same {α : Type} {edit : Edit α}
    (same : ∀ record value next, edit record = .ok (value, some next) →
      next.entry.secretRefs = record.entry.secretRefs ∧ next.secrets = record.secrets) :
    edit.Changes fingerprint drawn := by
  intro record value next coherent changed
  obtain ⟨sameRefs, sameSecrets⟩ := same record value next changed
  rw [sameRefs, sameSecrets]
  exact .kept

/-- Updating the usage of a provider keeps the keys. -/
theorem updateProviderUsage_changes (now : OffsetDateTime) (quota : Option QuotaInfo)
    (gateway : Option GatewayMetadata) (usageSource : Option String) :
    (updateProviderUsage now quota gateway usageSource).Changes fingerprint drawn := by
  apply changes_of_same
  intro record value next changed
  simp only [updateProviderUsage] at changed
  obtain ⟨-, changed⟩ | ⟨-, changed⟩ := ite_eq_iff.mp changed
  · cases changed
  · cases changed
    exact ⟨rfl, rfl⟩

/-- Updating the subscription of a provider keeps the keys. -/
theorem updateProviderSubscription_changes (now : OffsetDateTime) (snapshot : Option Value) :
    (updateProviderSubscription now snapshot).Changes fingerprint drawn := by
  apply changes_of_same
  intro record value next changed
  rw [updateProviderSubscription] at changed
  split at changed
  · cases changed
  · cases changed
    exact ⟨rfl, rfl⟩

/-- Revealing a secret keeps the keys. -/
theorem revealSelectedSecret_changes (now : OffsetDateTime) (labelOrId : String) (exact_ : Bool) :
    (revealSelectedSecret now labelOrId exact_).Changes fingerprint drawn := by
  apply changes_of_same
  intro record value next changed
  obtain ⟨secretId, -, changed⟩ := bind_eq_ok.mp changed
  obtain ⟨secret, -, changed⟩ := bind_eq_ok.mp changed
  cases changed
  exact ⟨rfl, rfl⟩

/-- Touching a provider keeps the keys. -/
theorem touchProviderLastUsed_changes (now : OffsetDateTime) :
    (touchProviderLastUsed now).Changes fingerprint drawn := by
  apply changes_of_same
  intro record value next changed
  cases changed
  exact ⟨rfl, rfl⟩

/-- A new secret of the first key replaces it. -/
theorem keyChange_first {primary : SecretRef} (coherent : record.Coherent fingerprint)
    (first : record.entry.secretRefs.head? = some primary) (marker : String) :
    KeyChange fingerprint drawn record
      (record.entry.secretRefs.modifyHead fun secret => secret.withSecret fingerprint marker)
      (record.secrets.insert primary.id marker) := by
  cases keys : record.entry.secretRefs with
  | nil =>
    rw [keys] at first
    cases first
  | cons secret rest =>
    rw [keys] at first
    cases first
    have parts : record.entry.secretRefs = [] ++ primary :: rest := keys
    have new : primary.label ∉ ([] ++ rest).map SecretRef.label := coherent.label_notMem parts
    have replaced : KeyChange fingerprint drawn record
        ([] ++ primary.withSecret fingerprint marker :: rest)
        (record.secrets.insert primary.id marker) :=
      .replaced parts rfl (shows_withSecret _ _) new
    exact replaced

/-- Migrating the scope of a subscription replaces the first key. -/
theorem migrateSubscriptionScope_changes (now : OffsetDateTime)
    (expectedMarker expectedBundle identity marker bundle : String) :
    (migrateSubscriptionScope fingerprint now expectedMarker expectedBundle identity marker
      bundle).Changes fingerprint drawn := by
  intro record value next coherent changed
  obtain ⟨primary, isFirst, changed⟩ := bind_eq_ok.mp changed
  obtain ⟨passed, -, changed⟩ := bind_eq_ok.mp changed
  cases changed
  exact keyChange_first coherent (okOr_eq_ok.mp isFirst) marker

/-- Binding a subscription to a CLI replaces the first key. -/
theorem bindCliSubscription_changes (now : OffsetDateTime)
    (provider identity marker extensionKey reference : String) :
    (bindCliSubscription fingerprint now provider identity marker extensionKey reference).Changes
      fingerprint drawn := by
  intro record value next coherent changed
  obtain ⟨primary, isFirst, changed⟩ := bind_eq_ok.mp changed
  cases changed
  exact keyChange_first coherent (okOr_eq_ok.mp isFirst) marker

end Aipass.Records
