import Aipass.Vault.Validate

/-!
# What the operations of a vault leave on disk

The operations on records, grants, devices and accounts as one type of requests. Each write of
an operation is a well-formed file under the session of the vault, so every operation keeps the
vault's files well formed. Expiring a grant is the exception: its tombstone keeps a payload.
-/
namespace Aipass

/-- One call of an operation of an unlocked vault, with what it draws. -/
inductive Operation where
  | writeProvider (draw : ObjectDraw) (id : Uuid) (plaintext : Bytes)
  | touchProvider (draw : ObjectDraw) (touch : Bytes → Option Bytes) (id : Uuid)
  | deleteProvider (now : OffsetDateTime) (event : AuditDraw) (id : Uuid)
  | writeDevice (draw : ObjectDraw) (device : DeviceRecord)
  | createGrant (draw : ObjectDraw) (event : AuditDraw) (grant : TtlGrantPlaintext)
  | consumeGrant (now : OffsetDateTime) (event : AuditDraw) (draw : ObjectDraw)
    (touch : Bytes → Option Bytes) (id : Uuid)
  | expireGrant (now : OffsetDateTime) (event : AuditDraw) (id : Uuid)
  | addOAuth (draws : OAuthDraws) (account : ManagedOAuthAccount)
  | updateOAuth (draws : OAuthDraws) (account : ManagedOAuthAccount)
  | setDefaultOAuth (draws : OAuthDraws) (provider : OAuthProvider) (id : Uuid)
  | removeOAuth (now : OffsetDateTime) (event : AuditDraw) (id : Uuid)
  | audit (draw : AuditDraw) (action : String) (recordId : Option Uuid) (detail : Option String)

variable (P : Platform)

/-- The program a request runs. -/
def Operation.program : Operation → Program Vault VaultError Unit
  | .writeProvider draw id plaintext => writeProviderRecord P draw id plaintext
  | .touchProvider draw touch id => touchProviderLastUsed P draw touch id
  | .deleteProvider now event id => deleteProviderPermanently P now event id
  | .writeDevice draw device => Aipass.writeDevice P draw device
  | .createGrant draw event grant => createSecretGrant P draw event grant
  | .consumeGrant now event draw touch id => do
    let _ ← consumeSecretGrant P now event draw touch id
  | .expireGrant now event id => Aipass.expireGrant P now event id
  | .addOAuth draws account => addOAuthAccount P draws account
  | .updateOAuth draws account => updateOAuthAccount P draws account
  | .setDefaultOAuth draws provider id => setDefaultOAuthAccount P draws provider id
  | .removeOAuth now event id => removeOAuthAccount P now event id
  | .audit draw action recordId detail => Aipass.audit P draw action recordId detail

/-- A request that makes `expire_grant` rewrite a grant. -/
def Operation.Expires (vault : Vault) : Operation → Prop
  | .expireGrant _ _ id => vault.disk.files[grantPath P id]?.isSome
  | .consumeGrant now _ _ _ id => ∃ grant, vault.readGrant P id = .ok grant ∧ grant.expiresAt ≤ now
  | _ => False

/-- A file that is well formed under a session. -/
def Stored (erased : Prop) (session : Session) (path : SyncPath) (bytes : Bytes) : Prop :=
  ∃ envelope, WellFormed P erased session.header.vaultId session.epochKey path bytes envelope

/-- The vault has the session and the journal it had, and every file is well formed. -/
structure Kept (erased : Prop) (start left : Vault) : Prop where
  /-- The session is unchanged. -/
  session : left.session = start.session
  /-- The manifest is unchanged. -/
  manifest : left.disk.manifest = start.disk.manifest
  /-- The journal is unchanged. -/
  pending : left.disk.pending = start.disk.pending
  /-- Every file is well formed. -/
  stored : ∀ (path : SyncPath) (bytes : Bytes), left.disk.files[path]? = some bytes →
    Stored P erased start.session path bytes

section Keeps

variable {P} {erased : Prop} {start : Vault}

/-- Writing a well-formed file keeps the files well formed. -/
theorem keeps_writeFile {path : SyncPath} {bytes : Bytes}
    (stored : Stored P erased start.session path bytes) :
    (writeFile path bytes).Keeps (Kept P erased start) := by
  refine Program.keeps_write fun left kept => ⟨kept.session, kept.manifest, kept.pending, ?_⟩
  intro place held found
  rw [Vault.withFiles_files, Table.get_insert] at found
  split at found
  case isTrue same =>
    rw [← same, ← Option.some.inj found]
    exact stored
  case isFalse => exact kept.stored place held found

/-- The envelope read at a path is that of a well-formed file. -/
theorem Kept.read {left : Vault} (kept : Kept P erased start left) {path : SyncPath}
    {envelope : ObjectEnvelope} (read : left.readEnvelope P path = .ok envelope) :
    ∃ bytes, WellFormed P erased start.session.header.vaultId start.session.epochKey path bytes
      envelope := by
  simp only [Vault.readEnvelope, bind_eq_ok, okOr_eq_ok] at read
  obtain ⟨bytes, found, parsed⟩ := read
  obtain ⟨stored, wellFormed⟩ := kept.stored path bytes found
  obtain rfl : stored = envelope := Option.some.inj (wellFormed.parsed.symm.trans parsed)
  exact ⟨bytes, wellFormed⟩

/-- A new envelope is well formed at the path of its object. -/
theorem stored_buildEnvelope (vault : Vault) {draw : ObjectDraw} {path : SyncPath}
    {objectId : Uuid} {objectType : String} {schemaVersion : UInt16} {plaintext bytes : Bytes}
    (named : path.stem = P.uuidText objectId) (versioned : schemaVersion ≠ 0)
    (written :
      bytes = P.envelope.toVec
        (vault.buildEnvelope P draw path objectId objectType schemaVersion plaintext) ∨
      bytes = P.envelope.toVecPretty
        (vault.buildEnvelope P draw path objectId objectType schemaVersion plaintext)) :
    Stored P erased vault.session path bytes :=
  have crypto : (1 : UInt16) ≠ 0 := by decide
  ⟨_, wellFormed_encrypt written rfl rfl rfl versioned crypto named rfl⟩

/-- Writing an object at the path of its identifier keeps the files well formed. -/
theorem keeps_writeEnvelope {draw : ObjectDraw} {path : SyncPath} {objectId : Uuid}
    {objectType : String} {schemaVersion : UInt16} {plaintext : Bytes}
    (named : path.stem = P.uuidText objectId) (versioned : schemaVersion ≠ 0) :
    (writeEnvelope P draw path objectId objectType schemaVersion plaintext).Keeps
      (Kept P erased start) := by
  refine Program.keeps_read fun vault kept => keeps_writeFile ?_
  rw [← kept.session]
  exact stored_buildEnvelope vault named versioned (Or.inr rfl)

/-- An audit event keeps the files well formed. -/
theorem keeps_audit {draw : AuditDraw} {action : String} {recordId : Option Uuid}
    {detail : Option String} :
    (audit P draw action recordId detail).Keeps (Kept P erased start) :=
  keeps_writeEnvelope rfl (by decide)

/-- Writing a provider record keeps the files well formed. -/
theorem keeps_writeProviderRecord {draw : ObjectDraw} {id : Uuid} {plaintext : Bytes} :
    (writeProviderRecord P draw id plaintext).Keeps (Kept P erased start) :=
  keeps_writeEnvelope rfl (by decide)

/-- Touching a provider record keeps the files well formed. -/
theorem keeps_touchProviderLastUsed {draw : ObjectDraw} {touch : Bytes → Option Bytes}
    {id : Uuid} : (touchProviderLastUsed P draw touch id).Keeps (Kept P erased start) :=
  Program.keeps_read fun _ _ => Program.keeps_ofExcept fun _ _ =>
    Program.keeps_ofExcept fun _ _ => keeps_writeProviderRecord

/-- A deletion keeps the files well formed. -/
theorem keeps_buryObject {now : OffsetDateTime} {event : AuditDraw} {objectType action : String}
    {id : Uuid} : (buryObject P now event objectType action id).Keeps (Kept P erased start) := by
  refine Program.keeps_read fun vault kept => ?_
  refine Program.keeps_ite (fun _ => (Program.keeps_fail _).bind fun _ => ?_) fun _ => ?_
  all_goals
    refine Program.keeps_ofExcept fun envelope read => ?_
    obtain ⟨bytes, wellFormed⟩ := kept.read read
    refine Program.keeps_ite (fun _ => (Program.keeps_fail _).bind fun _ => ?_) fun _ => ?_
    all_goals exact (keeps_writeFile ⟨_, wellFormed.bury (Or.inl rfl)⟩).bind fun _ => keeps_audit

/-- Expiring a grant keeps the files well formed if there is no grant to expire or a tombstone
may keep its payload. -/
theorem wp_expireGrant {now : OffsetDateTime} {event : AuditDraw} {id : Uuid}
    (kept : Kept P erased start start)
    (mayKeep : start.disk.files[grantPath P id]?.isSome → erased) :
    (expireGrant P now event id).wp (Kept P erased start) (fun _ => Kept P erased start)
      (fun _ => Kept P erased start) start := by
  simp only [expireGrant, Program.wp_bind, Program.wp_read]
  split
  case isTrue => exact (Program.wp_fail _).mpr kept
  case isFalse present =>
    have expires : erased := mayKeep (by simpa [Option.isSome_iff_ne_none] using present)
    refine Program.keeps_ofExcept (fun envelope read => ?_) start kept
    obtain ⟨bytes, wellFormed⟩ := kept.read read
    exact (keeps_writeFile ⟨_, wellFormed.bury (Or.inr expires)⟩).bind fun _ => keeps_audit

/-- Consuming a grant keeps the files well formed if the grant has not expired or a tombstone
may keep its payload. -/
theorem wp_consumeSecretGrant {now : OffsetDateTime} {event : AuditDraw} {draw : ObjectDraw}
    {touch : Bytes → Option Bytes} {id : Uuid} (kept : Kept P erased start start)
    (mayKeep : ∀ grant, start.readGrant P id = .ok grant → grant.expiresAt ≤ now → erased) :
    (consumeSecretGrant P now event draw touch id).wp (Kept P erased start)
      (fun _ => Kept P erased start) (fun _ => Kept P erased start) start := by
  simp only [consumeSecretGrant, Program.wp_bind, Program.wp_read, Program.wp_ofExcept]
  cases found : start.readGrant P id with
  | error error => exact kept
  | ok grant =>
    simp only
    split
    case isTrue expired =>
      rw [Program.wp_bind]
      refine Program.wp_mono (wp_expireGrant kept fun _ => mayKeep grant found expired)
        (fun _ left => left) (fun _ _ left => left) fun _ left kept => ?_
      exact (Program.wp_bind _ _).mpr ((Program.wp_fail _).mpr kept)
    case isFalse =>
      cases entry : grant.entryId with
      | none => exact (keeps_audit.bind fun _ => Program.keeps_pure _) start kept
      | some entryId =>
        refine (Program.Keeps.bind keeps_touchProviderLastUsed.attempt fun _ => ?_) start kept
        exact keeps_audit.bind fun _ => Program.keeps_pure _

/-- Writing an account keeps the files well formed. -/
theorem keeps_writeOAuthRecord {draw : ObjectDraw} {account : ManagedOAuthAccount} :
    (writeOAuthRecord P draw account).Keeps (Kept P erased start) :=
  keeps_writeEnvelope rfl (by decide)

/-- Clearing the default accounts of a provider keeps the files well formed. -/
theorem keeps_clearDefaultOAuthFor {draws : SyncPath → ObjectDraw} {provider : OAuthProvider} :
    (clearDefaultOAuthFor P draws provider).Keeps (Kept P erased start) :=
  Program.keeps_read fun _ _ => Program.keeps_forM fun _ _ =>
    Program.keeps_read fun _ _ => Program.keeps_ofExcept fun _ _ =>
      Program.keeps_ite (fun _ => keeps_writeOAuthRecord) fun _ => Program.keeps_pure _

/-- Writing an account and its audit event keeps the files well formed. -/
theorem keeps_writeAccount {draws : OAuthDraws} {account : ManagedOAuthAccount}
    {action : String} {id : Uuid} :
    (do
      writeOAuthRecord P draws.written account
      audit P draws.event action (some id) none :
      Program Vault VaultError Unit).Keeps (Kept P erased start) :=
  keeps_writeOAuthRecord.bind fun _ => keeps_audit

/-- Every request keeps the files well formed, unless it expires a grant and a tombstone may
not keep a payload. -/
theorem wp_operation (operation : Operation) (kept : Kept P erased start start)
    (mayKeep : operation.Expires P start → erased) :
    (operation.program P).wp (Kept P erased start) (fun _ => Kept P erased start)
      (fun _ => Kept P erased start) start := by
  cases operation with
  | writeProvider draw id plaintext => exact keeps_writeProviderRecord start kept
  | touchProvider draw touch id => exact keeps_touchProviderLastUsed start kept
  | deleteProvider now event id => exact keeps_buryObject start kept
  | writeDevice draw device => exact keeps_writeEnvelope rfl (by decide) start kept
  | createGrant draw event grant =>
    exact ((keeps_writeEnvelope rfl (by decide)).bind fun _ => keeps_audit) start kept
  | consumeGrant now event draw touch id =>
    refine (Program.wp_bind _ _).mpr (Program.wp_mono (wp_consumeSecretGrant kept ?_)
      (fun _ left => left) (fun _ _ left => left) fun _ _ left => (Program.wp_pure _).mpr left)
    exact fun grant found expired => mayKeep ⟨grant, found, expired⟩
  | expireGrant now event id => exact wp_expireGrant kept mayKeep
  | addOAuth draws account =>
    exact Program.keeps_ite (fun _ => keeps_clearDefaultOAuthFor.bind fun _ => keeps_writeAccount)
      (fun _ => keeps_writeAccount) start kept
  | updateOAuth draws account =>
    refine Program.keeps_read (fun _ _ => Program.keeps_ofExcept fun _ _ => ?_) start kept
    exact Program.keeps_ite (fun _ => keeps_clearDefaultOAuthFor.bind fun _ => keeps_writeAccount)
      fun _ => keeps_writeAccount
  | setDefaultOAuth draws provider id =>
    refine Program.keeps_read (fun _ _ => Program.keeps_ofExcept fun account _ => ?_) start kept
    refine Program.keeps_ite (fun _ => (Program.keeps_fail _).bind fun _ => ?_) fun _ => ?_
    all_goals exact keeps_clearDefaultOAuthFor.bind fun _ => keeps_writeAccount
  | removeOAuth now event id => exact keeps_buryObject start kept
  | audit draw action recordId detail => exact keeps_audit start kept

end Keeps

end Aipass
