import Aipass.Vault.Fleet

/-!
# Default OAuth accounts

The live accounts of a vault, by the path of their record. Each operation on accounts is
described by what it does to them: it clears the flag of a provider, replaces one account or
removes one. The operations keep at most one default account for each provider. A merge picks
record by record, so it keeps that only if the two sides did not each leave a default of their
own.
-/
namespace Aipass

variable (P : Platform)

/-- The live account that a file holds under an epoch. -/
def accountOf (epoch : VaultEpochKey) (bytes : Bytes) : Option ManagedOAuthAccount :=
  match P.envelope.fromSlice bytes with
  | none => none
  | some envelope =>
    if envelope.tombstone ∨ envelope.objectType ≠ "oauth_account" then none
    else match decryptEnvelopeWithEpoch P envelope epoch with
      | .ok plaintext => P.oauthAccount.fromSlice plaintext
      | .error _ => none

/-- The live account at each path of `objects/`. -/
def accountsOf (epoch : VaultEpochKey) (files : Table SyncPath Bytes) (path : SyncPath) :
    Option ManagedOAuthAccount :=
  if path.dir = .objects then files[path]?.bind (accountOf P epoch) else none

/-- The live accounts of a vault. -/
def Vault.accounts (vault : Vault) : SyncPath → Option ManagedOAuthAccount :=
  accountsOf P vault.session.epochKey vault.disk.files

/-- Each account is at the path of its identifier, and each provider has at most one default
account. -/
structure OneDefaultEach (held : SyncPath → Option ManagedOAuthAccount) : Prop where
  /-- The path of an account names it. -/
  named : ∀ {path account}, held path = some account → recordPath P account.id = path
  /-- Two default accounts of a provider are the same record. -/
  single : ∀ {left right first second}, held left = some first → held right = some second →
    first.provider = second.provider → first.isDefault → second.isDefault → left = right

/-- `decrypt_oauth_path` returns the live account of an object. -/
theorem decryptOAuthPath_eq_ok {vault : Vault} {path : SyncPath} {account : ManagedOAuthAccount}
    (object : path.dir = .objects) :
    vault.decryptOAuthPath P path = .ok account ↔ vault.accounts P path = some account := by
  unfold Vault.accounts accountsOf accountOf Vault.decryptOAuthPath Vault.decryptEnvelopePath
    Vault.readEnvelope
  rw [if_pos object]
  cases found : vault.disk.files[path]? with
  | none => simp
  | some bytes =>
    cases parsed : P.envelope.fromSlice bytes with
    | none => simp [parsed]
    | some envelope =>
      by_cases other : envelope.tombstone ∨ envelope.objectType ≠ "oauth_account"
      · simp [parsed, other]
      · cases opened : decryptEnvelopeWithEpoch P envelope vault.session.epochKey with
        | error error => simp [parsed, other, opened]
        | ok plaintext => simp [parsed, other, opened]

/-- Every live account is listed. -/
theorem mem_oauthRecordPaths {vault : Vault} {path : SyncPath} {account : ManagedOAuthAccount}
    (held : vault.accounts P path = some account) : path ∈ vault.oauthRecordPaths P := by
  unfold Vault.accounts accountsOf at held
  split at held
  case isFalse => simp at held
  case isTrue object =>
    obtain ⟨bytes, found, account⟩ := Option.bind_eq_some_iff.mp held
    unfold accountOf at account
    cases parsed : P.envelope.fromSlice bytes with
    | none => simp [parsed] at account
    | some envelope =>
      simp only [parsed] at account
      split at account
      case isTrue => simp at account
      case isFalse live =>
        simp only [not_or, Bool.not_eq_true, ne_eq, not_not] at live
        have present : path ∈ vault.disk.files.keys := Table.mem_keys_iff.mpr (by simp [found])
        have record : vault.isOAuthRecord P path = true := by
          simp [Vault.isOAuthRecord, Vault.readEnvelope, found, parsed, live]
        exact List.mem_filter.mpr
          ⟨List.mem_filter.mpr ⟨present, decide_eq_true object⟩, record⟩

/-- A listed record is an object. -/
theorem objects_of_mem_oauthRecordPaths {vault : Vault} {path : SyncPath}
    (listed : path ∈ vault.oauthRecordPaths P) : path.dir = .objects := by
  have object := (List.mem_filter.mp listed).1
  simpa using (List.mem_filter.mp object).2

/-- Files outside `objects/` do not matter. -/
theorem accountsOf_congr {epoch : VaultEpochKey} {files files' : Table SyncPath Bytes}
    (same : ∀ path : SyncPath, path.dir = .objects → files'[path]? = files[path]?) :
    accountsOf P epoch files' = accountsOf P epoch files := by
  funext path
  unfold accountsOf
  split
  case isTrue object => rw [same path object]
  case isFalse => rfl

/-- The account at a path of `objects/` is the one its file holds. -/
theorem accountsOf_object {epoch : VaultEpochKey} {files : Table SyncPath Bytes} {path : SyncPath}
    {bytes : Bytes} (object : path.dir = .objects) (held : files[path]? = some bytes) :
    accountsOf P epoch files path = accountOf P epoch bytes := by
  simp [accountsOf, object, held]

/-- Installing an object replaces the account at its path. -/
theorem accountsOf_insert {epoch : VaultEpochKey} (files : Table SyncPath Bytes)
    {path : SyncPath} (object : path.dir = .objects) (bytes : Bytes) :
    accountsOf P epoch (files.insert path bytes) =
      Function.update (accountsOf P epoch files) path (accountOf P epoch bytes) := by
  funext other
  by_cases same : other = path
  · subst same
    simp [accountsOf, object]
  · rw [Function.update_of_ne same, accountsOf, Table.get_insert, if_neg (Ne.symm same)]
    rfl

/-- A new record holds the account that was written. -/
theorem accountOf_build (vault : Vault) (draw : ObjectDraw) (account : ManagedOAuthAccount) :
    accountOf P vault.session.epochKey (P.envelope.toVecPretty
      (vault.buildEnvelope P draw (recordPath P account.id) account.id "oauth_account" 1
        (P.oauthAccount.toVec account))) = some account := by
  have live : (vault.buildEnvelope P draw (recordPath P account.id) account.id "oauth_account" 1
      (P.oauthAccount.toVec account)).tombstone = false := rfl
  have kind : (vault.buildEnvelope P draw (recordPath P account.id) account.id "oauth_account" 1
      (P.oauthAccount.toVec account)).objectType = "oauth_account" := rfl
  have opened : decryptEnvelopeWithEpoch P (vault.buildEnvelope P draw (recordPath P account.id)
      account.id "oauth_account" 1 (P.oauthAccount.toVec account)) vault.session.epochKey =
        .ok (P.oauthAccount.toVec account) :=
    decryptEnvelopeWithEpoch_encryptEnvelope P _ _ _ _ rfl
  simp [accountOf, live, kind, opened]

/-- An account without the flag of its provider. -/
def clearedFor (provider : OAuthProvider) (account : ManagedOAuthAccount) : ManagedOAuthAccount :=
  if account.provider = provider then { account with isDefault := false } else account

section Clearing

variable {provider : OAuthProvider} {account : ManagedOAuthAccount}

@[simp] theorem clearedFor_id : (clearedFor provider account).id = account.id := by
  unfold clearedFor
  split <;> rfl

@[simp] theorem clearedFor_provider :
    (clearedFor provider account).provider = account.provider := by
  unfold clearedFor
  split <;> rfl

/-- An account that is cleared for its own provider is no default. -/
theorem clearedFor_isDefault (own : account.provider = provider) :
    (clearedFor provider account).isDefault = false := by
  rw [clearedFor, if_pos own]

/-- An account of another provider, or one that is no default, is left as it is. -/
theorem clearedFor_of_not (other : ¬ (account.provider = provider ∧ account.isDefault = true)) :
    clearedFor provider account = account := by
  unfold clearedFor
  split
  case isTrue own =>
    have plain : account.isDefault = false := by simpa [own] using other
    rw [← plain]
  case isFalse => rfl

/-- A default account that is cleared was one before. -/
theorem isDefault_of_clearedFor (flagged : (clearedFor provider account).isDefault = true) :
    account.isDefault = true := by
  unfold clearedFor at flagged
  split at flagged
  · simp at flagged
  · exact flagged

/-- Clearing twice is clearing once. -/
@[simp] theorem clearedFor_clearedFor :
    clearedFor provider (clearedFor provider account) = clearedFor provider account := by
  unfold clearedFor
  split <;> rfl

end Clearing

/-- The accounts at some paths are cleared for a provider. -/
def clearedAt (provider : OAuthProvider) (paths : List SyncPath)
    (held : SyncPath → Option ManagedOAuthAccount) (path : SyncPath) :
    Option ManagedOAuthAccount :=
  if path ∈ paths then (held path).map (clearedFor provider) else held path

/-- Clearing one path more. -/
theorem clearedAt_append (provider : OAuthProvider) (paths : List SyncPath) (path : SyncPath)
    (held : SyncPath → Option ManagedOAuthAccount) :
    clearedAt provider (paths ++ [path]) held = Function.update (clearedAt provider paths held) path
      ((clearedAt provider paths held path).map (clearedFor provider)) := by
  funext other
  by_cases same : other = path
  · subst same
    rw [Function.update_self]
    by_cases earlier : other ∈ paths
    · simp [clearedAt, earlier, Function.comp_def]
    · simp [clearedAt, earlier]
  · simp [clearedAt, same]

section Defaults

variable {P} {held : SyncPath → Option ManagedOAuthAccount}

/-- Clearing the accounts of some paths keeps one default for each provider. -/
theorem OneDefaultEach.clear (one : OneDefaultEach P held) (provider : OAuthProvider)
    (paths : List SyncPath) :
    OneDefaultEach P (clearedAt provider paths held) := by
  have source : ∀ {path account}, clearedAt provider paths held path = some account →
      ∃ before, held path = some before ∧ before.id = account.id ∧
        before.provider = account.provider ∧
        (account.isDefault = true → before.isDefault = true) := by
    intro path account after
    unfold clearedAt at after
    split at after
    · obtain ⟨before, present, rfl⟩ := Option.map_eq_some_iff.mp after
      exact ⟨before, present, by simp, by simp, isDefault_of_clearedFor⟩
    · exact ⟨account, after, rfl, rfl, id⟩
  constructor
  · intro path account after
    obtain ⟨before, present, same, -⟩ := source after
    rw [← same]
    exact one.named present
  · intro left right first second atLeft atRight providers firstDefault secondDefault
    obtain ⟨first', presentLeft, -, leftProvider, leftFlag⟩ := source atLeft
    obtain ⟨second', presentRight, -, rightProvider, rightFlag⟩ := source atRight
    exact one.single presentLeft presentRight (by rw [leftProvider, rightProvider, providers])
      (leftFlag firstDefault) (rightFlag secondDefault)

/-- Replacing one account keeps one default for each provider, if the account is at its own
path and is a default only where its provider has no other. -/
theorem OneDefaultEach.update (one : OneDefaultEach P held) {path : SyncPath}
    {replaced : Option ManagedOAuthAccount}
    (named : ∀ account, replaced = some account → recordPath P account.id = path)
    (alone : ∀ account, replaced = some account → account.isDefault = true →
      ∀ other another, other ≠ path → held other = some another →
        another.provider = account.provider → another.isDefault = false) :
    OneDefaultEach P (Function.update held path replaced) := by
  constructor
  · intro other account after
    by_cases same : other = path
    · subst same
      rw [Function.update_self] at after
      exact named account after
    · rw [Function.update_of_ne same] at after
      exact one.named after
  · intro left right first second atLeft atRight providers firstDefault secondDefault
    by_cases leftSame : left = path
    · by_cases rightSame : right = path
      · rw [leftSame, rightSame]
      · subst leftSame
        rw [Function.update_self] at atLeft
        rw [Function.update_of_ne rightSame] at atRight
        have plain := alone first atLeft firstDefault right second rightSame atRight providers.symm
        simp [plain] at secondDefault
    · rw [Function.update_of_ne leftSame] at atLeft
      by_cases rightSame : right = path
      · subst rightSame
        rw [Function.update_self] at atRight
        have plain := alone second atRight secondDefault left first leftSame atLeft providers
        simp [plain] at firstDefault
      · rw [Function.update_of_ne rightSame] at atRight
        exact one.single atLeft atRight providers firstDefault secondDefault

/-- Removing an account keeps one default for each provider. -/
theorem OneDefaultEach.remove (one : OneDefaultEach P held) (path : SyncPath) :
    OneDefaultEach P (Function.update held path none) :=
  one.update (by simp) (by simp)

end Defaults

/-- A vault with the session of another, one default account for each provider, and nothing
said of the rest. -/
structure Tidied (start left : Vault) : Prop where
  /-- The session is unchanged. -/
  session : left.session = start.session
  /-- Each provider has at most one default account. -/
  one : OneDefaultEach P (left.accounts P)

section Operations

variable {P} {start vault : Vault}

/-- Writing an account replaces the one at its path. -/
theorem wp_writeOAuthRecord {draw : ObjectDraw} {account : ManagedOAuthAccount}
    {mid : Vault → Prop} {err : VaultError → Vault → Prop} {ok : Unit → Vault → Prop}
    (after : ∀ left : Vault, left.session = vault.session →
      left.accounts P = Function.update (vault.accounts P) (recordPath P account.id) account →
        mid left ∧ ok () left) :
    (writeOAuthRecord P draw account).wp mid err ok vault := by
  refine (wp_writeEnvelope P).mpr (after _ rfl ?_)
  change accountsOf P vault.session.epochKey (vault.disk.files.insert _ _) = _
  rw [accountsOf_insert P _ rfl, accountOf_build]
  rfl

/-- An audit event changes no account. -/
theorem wp_audit_accounts {draw : AuditDraw} {action : String} {recordId : Option Uuid}
    {detail : Option String} {mid : Vault → Prop} {err : VaultError → Vault → Prop}
    {ok : Unit → Vault → Prop}
    (after : ∀ left : Vault, left.session = vault.session → left.accounts P = vault.accounts P →
      mid left ∧ ok () left) :
    (audit P draw action recordId detail).wp mid err ok vault := by
  refine wp_audit P fun files same => after _ rfl ?_
  exact accountsOf_congr P fun path object => same path (by simp [object])

/-- Clearing a provider clears the listed accounts; a failure may leave some uncleared. -/
theorem wp_clearDefaultOAuthFor {draws : SyncPath → ObjectDraw} {provider : OAuthProvider}
    (one : OneDefaultEach P (vault.accounts P)) :
    (clearDefaultOAuthFor P draws provider).wp (fun _ => True)
      (fun _ => Tidied P vault)
      (fun _ left => left.session = vault.session ∧
        left.accounts P = clearedAt provider (vault.oauthRecordPaths P) (vault.accounts P))
      vault := by
  simp only [clearDefaultOAuthFor, Program.wp_bind, Program.wp_read]
  refine Program.wp_forM _ _ (fun visited (left : Vault) => left.session = vault.session ∧
    left.accounts P = clearedAt provider visited (vault.accounts P)) ⟨rfl, ?_⟩ ?_
  · funext path
    simp [clearedAt]
  · rintro visited path rest split' left ⟨session, accounts⟩
    have listed : path ∈ vault.oauthRecordPaths P := by simp [split']
    have object := objects_of_mem_oauthRecordPaths P listed
    simp only [clearDefaultAt, Program.wp_bind, Program.wp_read, Program.wp_ofExcept]
    cases read : left.decryptOAuthPath P path with
    | error error =>
      refine ⟨session, ?_⟩
      rw [accounts]
      exact one.clear provider visited
    | ok account =>
      have present := (decryptOAuthPath_eq_ok P object).mp read
      have named : recordPath P account.id = path := by
        rw [accounts] at present
        exact (one.clear provider visited).named present
      have next := clearedAt_append provider visited path (vault.accounts P)
      rw [← accounts, present, Option.map_some] at next
      simp only
      split
      case isTrue flagged =>
        refine wp_writeOAuthRecord fun after session' accounts' => ⟨trivial, ?_, ?_⟩
        · rw [session', session]
        · rw [accounts', next, clearedFor, if_pos flagged.1]
          simp only [named]
      case isFalse plain =>
        rw [clearedFor_of_not plain, ← present, Function.update_eq_self] at next
        exact (Program.wp_pure _).mpr ⟨session, next.symm⟩

/-- Writing an account that is no default, or the only one of its provider, keeps the vault
tidied. -/
theorem Tidied.wp_writeAccount {left : Vault} (tidied : Tidied P start left) {draws : OAuthDraws}
    {account : ManagedOAuthAccount} {action : String} {id : Uuid}
    (alone : account.isDefault = true → ∀ other another, left.accounts P other = some another →
      another.provider = account.provider → another.isDefault = false) :
    (do
      writeOAuthRecord P draws.written account
      audit P draws.event action (some id) none : Program Vault VaultError Unit).wp (fun _ => True)
        (fun _ => Tidied P start) (fun _ => Tidied P start) left := by
  rw [Program.wp_bind]
  refine wp_writeOAuthRecord fun written session accounts => ⟨trivial, ?_⟩
  refine wp_audit_accounts fun after session' accounts' => ⟨trivial, ?_, ?_⟩
  · rw [session', session, tidied.session]
  · rw [accounts', accounts]
    refine tidied.one.update ?_ ?_
    · rintro _ ⟨⟩
      rfl
    · rintro _ ⟨⟩ flagged other another - held provider
      exact alone flagged other another held provider

/-- Clearing a provider and then writing an account of it keeps the vault tidied. -/
theorem wp_clearAndWrite (one : OneDefaultEach P (start.accounts P)) (draws : OAuthDraws)
    (account : ManagedOAuthAccount) (action : String) (id : Uuid) :
    (do
      clearDefaultOAuthFor P draws.cleared account.provider
      writeOAuthRecord P draws.written account
      audit P draws.event action (some id) none : Program Vault VaultError Unit).wp (fun _ => True)
        (fun _ => Tidied P start) (fun _ => Tidied P start) start := by
  rw [Program.wp_bind]
  refine Program.wp_mono (wp_clearDefaultOAuthFor one) (fun _ _ => trivial)
    (fun _ _ left => left) ?_
  rintro _ left ⟨session, accounts⟩
  have tidied : Tidied P start left := by
    refine ⟨session, ?_⟩
    rw [accounts]
    exact one.clear account.provider _
  refine tidied.wp_writeAccount fun _ other another held provider => ?_
  rw [accounts] at held
  -- Every account is listed, so every account of the provider was cleared.
  have listed : other ∈ start.oauthRecordPaths P := by
    by_contra unlisted
    rw [clearedAt, if_neg unlisted] at held
    exact unlisted (mem_oauthRecordPaths P held)
  rw [clearedAt, if_pos listed] at held
  obtain ⟨before, -, rfl⟩ := Option.map_eq_some_iff.mp held
  rw [clearedFor_provider] at provider
  exact clearedFor_isDefault provider

/-- A tombstone in place of an account keeps the vault tidied. -/
theorem wp_buryObject_accounts (one : OneDefaultEach P (start.accounts P)) {now : OffsetDateTime}
    {event : AuditDraw} {objectType action : String} {id : Uuid} :
    (buryObject P now event objectType action id).wp (fun _ => True)
      (fun _ => Tidied P start) (fun _ => Tidied P start) start := by
  have still : Tidied P start start := ⟨rfl, one⟩
  simp only [buryObject, Program.wp_bind, Program.wp_read]
  split
  case isTrue => exact (Program.wp_fail _).mpr still
  case isFalse =>
    simp only [Program.wp_bind, Program.wp_ofExcept]
    cases start.readEnvelope P (recordPath P id) with
    | error error => exact still
    | ok envelope =>
      simp only
      split
      case isTrue => exact (Program.wp_fail _).mpr still
      case isFalse =>
        rw [Program.wp_bind]
        refine (Program.wp_write _).mpr ⟨trivial, ?_⟩
        refine wp_audit_accounts fun left session accounts => ⟨trivial, session, ?_⟩
        have removed : accountOf P start.session.epochKey (P.envelope.toVecPretty { envelope with
            wrappedDek := none
            payload := none
            tombstone := true
            updatedAt := now
            lamport := saturatingAdd envelope.lamport 1 }) = none := by
          simp [accountOf]
        rw [accounts]
        change OneDefaultEach P (accountsOf P start.session.epochKey (start.disk.files.insert _ _))
        rw [accountsOf_insert P _ rfl, removed]
        exact one.remove _

/-- The requests that are about accounts. -/
def Operation.OnAccounts : Operation → Prop
  | .addOAuth .. | .updateOAuth .. | .setDefaultOAuth .. | .removeOAuth .. => True
  | _ => False

/-- A request about accounts keeps one default for each provider. -/
theorem wp_operation_accounts (operation : Operation) (about : operation.OnAccounts)
    (one : OneDefaultEach P (start.accounts P)) :
    (operation.program P).wp (fun _ => True) (fun _ => Tidied P start) (fun _ => Tidied P start)
      start := by
  have still : Tidied P start start := ⟨rfl, one⟩
  cases operation with
  | addOAuth draws account =>
    simp only [Operation.program, addOAuthAccount]
    split
    case isTrue => exact wp_clearAndWrite one draws account "oauth.create" account.id
    case isFalse plain => exact still.wp_writeAccount fun flagged => absurd flagged plain
  | updateOAuth draws account =>
    simp only [Operation.program, updateOAuthAccount, Program.wp_bind, Program.wp_read,
      Program.wp_ofExcept]
    cases start.decryptOAuthPath P (recordPath P account.id) with
    | error error => exact still
    | ok found =>
      simp only
      split
      case isTrue => exact wp_clearAndWrite one draws account "oauth.update" account.id
      case isFalse plain => exact still.wp_writeAccount fun flagged => absurd flagged plain
  | setDefaultOAuth draws provider id =>
    simp only [Operation.program, setDefaultOAuthAccount, Program.wp_bind, Program.wp_read,
      Program.wp_ofExcept]
    cases start.decryptOAuthPath P (recordPath P id) with
    | error error => exact still
    | ok account =>
      simp only
      split
      case isTrue => exact (Program.wp_fail _).mpr still
      case isFalse own =>
        simp only [ne_eq, not_not] at own
        subst own
        exact wp_clearAndWrite one draws { account with isDefault := true } "oauth.set_default" id
  | removeOAuth now event id => exact wp_buryObject_accounts one
  | writeProvider | touchProvider | deleteProvider | writeDevice | createGrant | consumeGrant
  | expireGrant | audit => exact about.elim

end Operations

end Aipass
