import Aipass.Records.Settled

/-!
# Records that operations reach

Operations run one after another on a vault without records, each with an identifier for a key that
no earlier one drew, and each may fail or be stopped after any write. Every record they reach is
coherent. An operation that fails leaves the records as it found them, unless it fails when the
record is already written; then it leaves them as it does without faults.
-/
namespace Aipass.Records

variable (fingerprint : String → String) (uuidText : Uuid → String)

/-- The files of a vault without records. -/
def Store.created : Store where
  records _ := none
  grants _ := none
  events := []

/-- A store that operations reach, with the identifiers of keys that they drew. -/
inductive Reached : List String → Store → Prop
  | created : Reached [] .created
  | ended {drawn : List String} {store : Store} (reached : Reached drawn store)
      (operation : Operation) (draws : Draws) (new : draws.secretId ∉ drawn) :
      Reached (draws.secretId :: drawn)
        ((operation.program fingerprint uuidText draws).run store).final
  | stopped {drawn : List String} {store left : Store} (reached : Reached drawn store)
      (operation : Operation) (draws : Draws) (new : draws.secretId ∉ drawn)
      (durable : left ∈ ((operation.program fingerprint uuidText draws).run store).durable) :
      Reached (draws.secretId :: drawn) left

/-- The records are coherent, and the identifiers of their keys were drawn. -/
def Sound (drawn : List String) (records : RecordFiles) : Prop :=
  ∀ id record, records id = some record →
    record.Coherent fingerprint ∧ ∀ key ∈ record.ids, key ∈ drawn

variable {fingerprint uuidText} {drawn : List String} {α : Type} {late : Prop} {secretId : String}
  {start after : RecordFiles} {store left : Store} {quiet program : Program Store VaultError α}

/-- Drawing another identifier keeps records sound. -/
theorem Sound.cons (sound : Sound fingerprint drawn start) (secretId : String) :
    Sound fingerprint (secretId :: drawn) start := by
  intro id record there
  obtain ⟨coherent, keys⟩ := sound id record there
  exact ⟨coherent, fun key inside => List.mem_cons_of_mem _ (keys key inside)⟩

/-- One change with a new identifier keeps records sound. -/
theorem Sound.follows (sound : Sound fingerprint drawn start) (new : secretId ∉ drawn)
    (follows : Follows fingerprint secretId start after) :
    Sound fingerprint (secretId :: drawn) after := by
  intro id next there
  obtain same | ⟨coherent, ids⟩ | ⟨record, was, changes⟩ := follows id next there
  · exact sound.cons secretId id next same
  · refine ⟨coherent, fun key inside => ?_⟩
    rw [ids, List.mem_singleton] at inside
    exact inside ▸ List.mem_cons_self
  · obtain ⟨coherent, keys⟩ := sound id record was
    have changed := changes coherent
    refine ⟨changed.coherent coherent fun isKey => new (keys _ isKey), fun key inside => ?_⟩
    obtain rfl | old := changed.ids key inside
    · exact List.mem_cons_self
    · exact List.mem_cons_of_mem _ (keys key old)

/-- What a program leaves when it ends, and after each of its writes, is sound. -/
theorem Settled.sound (settled : Settled fingerprint secretId late quiet program store)
    (sound : Sound fingerprint drawn store.records) (new : secretId ∉ drawn) :
    program.wp (fun left => Sound fingerprint (secretId :: drawn) left.records)
      (fun _ left => Sound fingerprint (secretId :: drawn) left.records)
      (fun _ left => Sound fingerprint (secretId :: drawn) left.records) store := by
  have kept : ∀ left : Store, left.records = store.records →
      Sound fingerprint (secretId :: drawn) left.records := by
    intro left same
    rw [same]
    exact sound.cons secretId
  cases settled with
  | kept spares =>
    exact Program.wp_mono spares kept (fun _ left same => kept left same.2) fun _ => kept
  | changed follows leaves reaches =>
    have changed := sound.follows new follows
    refine Program.wp_mono leaves ?_ ?_ ?_
    · rintro left (same | same)
      · exact kept left same
      · exact same ▸ changed
    · rintro error left (same | ⟨-, same⟩)
      · exact kept left same
      · exact same ▸ changed
    · rintro value left (same | same)
      · exact kept left same
      · exact same ▸ changed

/-- The records that operations reach are sound. -/
theorem Reached.sound (reached : Reached fingerprint uuidText drawn store) :
    Sound fingerprint drawn store.records := by
  induction reached with
  | created =>
    intro id record there
    cases there
  | @ended drawn store reached operation draws new ih =>
    exact Program.wp_final _ _ ((settled_program operation draws).sound ih new)
  | @stopped drawn store left reached operation draws new durable ih =>
    exact ((settled_program operation draws).sound ih new).1 left durable

/-- What a program that fails leaves of the records. -/
theorem Settled.failed (settled : Settled fingerprint secretId late quiet program store)
    {error : VaultError} (failed : (program.run store).result = .error error) :
    (program.run store).final.records = store.records ∨
      late ∧ (∃ value, (quiet.run store).result = .ok value) ∧
        (program.run store).final.records = (quiet.run store).final.records := by
  cases settled with
  | kept spares => exact .inl (Program.wp_error spares failed).2
  | changed follows leaves reaches =>
    obtain same | ⟨cause, same⟩ := Program.wp_error leaves failed
    · exact .inl same
    · cases quietly : (quiet.run store).result with
      | error error => exact (Program.wp_error reaches quietly).elim
      | ok value =>
        have settles : (quiet.run store).final.records = _ := Program.wp_ok reaches quietly
        exact .inr ⟨cause, ⟨value, rfl⟩, same.trans settles.symm⟩

/-- Every record that operations reach is coherent. An operation that fails leaves the records as
they were, or as it leaves them without faults if something failed when the record was written. -/
theorem coherent_and_failed (fingerprint : String → String) (uuidText : Uuid → String) :
    (∀ drawn store, Reached fingerprint uuidText drawn store →
      ∀ id record, store.records id = some record → record.Coherent fingerprint) ∧
    ∀ (operation : Operation) (draws : Draws) (store : Store) (error : VaultError),
      let failing := (operation.program fingerprint uuidText draws).run store
      let quiet := (operation.program fingerprint uuidText draws.quiet).run store
      failing.result = .error error →
        failing.final.records = store.records ∨
          draws.faults.Late ∧ quiet.result = .ok () ∧
            failing.final.records = quiet.final.records := by
  refine ⟨fun drawn store reached id record there => (reached.sound id record there).1, ?_⟩
  intro operation draws store error failing quiet failed
  obtain same | ⟨late, ⟨⟨⟩, done⟩, same⟩ := (settled_program operation draws).failed failed
  · exact .inl same
  · exact .inr ⟨late, done, same⟩

/-- A provider with one key. -/
def sampleInput : ProviderEntryInput where
  form := .null
  providerId := none
  credentialKind := .api
  accountIdentity := none
  maxConcurrentRequests := none
  supportsWebsockets := none
  apiKey := "sk-1"
  secretLabel := none
  headers := []
  quota := none
  subscription := none
  gateway := none
  secretMetadata := ⟨none, none, none, none, none⟩

/-- Draws of an operation that meets one fault at most, at the event of its record. -/
def sampleDraws (secretId : String) (recordEvent : WriteEnd) : Draws where
  now := 0
  usedAt := 0
  entryId := 0
  secretId
  grantId index := BitVec.ofNat 128 (index + 1)
  faults := { Faults.none with recordEvent }

/-- A key whose removal is not audited is removed, and the removal fails. -/
theorem removed_without_event :
    ¬∀ (drawn : List String) (store : Store) (operation : Operation) (draws : Draws)
      (error : VaultError), Reached id (fun _ => "") drawn store →
        ((operation.program id (fun _ => "") draws).run store).result = .error error →
          ((operation.program id (fun _ => "") draws).run store).final.records =
            store.records := by
  intro unchanged
  let added := (((Operation.addProvider sampleInput ∅).program id (fun _ => "")
    (sampleDraws "k" .done)).run .created).final
  have reached : Reached id (fun _ => "") ["k"] added :=
    .ended .created _ (sampleDraws "k" .done) List.not_mem_nil
  have held : (added.records 0).map ProviderRecordPlaintext.ids = some ["k"] := rfl
  have removal := unchanged ["k"] added (.removeSecret 0 "primary") (sampleDraws "l" .unplaced) .io
    reached rfl
  have gone : (added.records 0).map ProviderRecordPlaintext.ids = some [] := by
    rw [← removal]
    rfl
  rw [held] at gone
  cases gone

end Aipass.Records
