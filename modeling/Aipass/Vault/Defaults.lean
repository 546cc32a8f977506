import Aipass.Vault.OAuth

/-!
# Default accounts across devices

Runs of a fleet whose devices work on accounts, hand out snapshots, merge them and install the
result. Every vault keeps one default account for each provider as long as no merge combines
two sides that each changed a record into a default of the same provider.
-/
namespace Aipass

variable (P : Platform)

/-- Two sides of a merge each changed a record, and left it the default of one provider. -/
def DefaultsClash (epoch : VaultEpochKey) (ours theirs base : Table SyncPath Bytes) : Prop :=
  ∃ left right first second, left ≠ right ∧
    accountsOf P epoch ours left = some first ∧ ours[left]? ≠ base[left]? ∧
    accountsOf P epoch theirs right = some second ∧ theirs[right]? ≠ base[right]? ∧
    first.provider = second.provider ∧ first.isDefault = true ∧ second.isDefault = true

section Merge

variable {P} {epoch : VaultEpochKey} {ours theirs base merged : Table SyncPath Bytes}

/-- The account of a merge at a path is that of the side it picked. -/
theorem accountsOf_of_get {files files' : Table SyncPath Bytes} {path : SyncPath}
    (same : files'[path]? = files[path]?) :
    accountsOf P epoch files' path = accountsOf P epoch files path := by
  simp only [accountsOf, same]

/-- What a merge holds at an object is what one side holds, and the other side did not change
it. -/
theorem picked_of_merge
    (picked : Table.merge (withoutAudit ours) (withoutAudit theirs) (withoutAudit base) =
      some merged) {path : SyncPath} (object : path.dir = .objects) :
    (merged[path]? = ours[path]? ∨ merged[path]? = theirs[path]?) ∧
      (merged[path]? = ours[path]? ∨ ours[path]? = base[path]?) ∧
      (merged[path]? = theirs[path]? ∨ theirs[path]? = base[path]?) := by
  have choice := picked_of_choose (Table.merge_eq_some.mp picked path)
  simpa [object] using choice

/-- A path of an account is an object. -/
theorem objects_of_accountsOf {files : Table SyncPath Bytes} {path : SyncPath}
    {account : ManagedOAuthAccount} (held : accountsOf P epoch files path = some account) :
    path.dir = .objects := by
  unfold accountsOf at held
  split at held
  · assumption
  · simp at held

/-- A merge of two sides with one default for each provider has one, exactly when the sides did
not clash. -/
theorem oneDefaultEach_merge_iff (oursOne : OneDefaultEach P (accountsOf P epoch ours))
    (theirsOne : OneDefaultEach P (accountsOf P epoch theirs))
    (picked : Table.merge (withoutAudit ours) (withoutAudit theirs) (withoutAudit base) =
      some merged) :
    OneDefaultEach P (accountsOf P epoch merged) ↔ ¬ DefaultsClash P epoch ours theirs base := by
  -- An account of the merge is held by both sides, or by a side that changed its record.
  have side : ∀ {path account}, accountsOf P epoch merged path = some account →
      (accountsOf P epoch ours path = some account ∧ accountsOf P epoch theirs path = some account) ∨
      (accountsOf P epoch ours path = some account ∧ ours[path]? ≠ base[path]?) ∨
      (accountsOf P epoch theirs path = some account ∧ theirs[path]? ≠ base[path]?) := by
    intro path account held
    obtain ⟨either, fromOurs, fromTheirs⟩ := picked_of_merge picked (objects_of_accountsOf held)
    by_cases oursSame : merged[path]? = ours[path]?
    · have oursHeld : accountsOf P epoch ours path = some account := by
        rw [← accountsOf_of_get oursSame, held]
      by_cases theirsSame : merged[path]? = theirs[path]?
      · exact Or.inl ⟨oursHeld, by rw [← accountsOf_of_get theirsSame, held]⟩
      · have kept := fromTheirs.resolve_left theirsSame
        exact Or.inr (Or.inl ⟨oursHeld, fun same => theirsSame (by rw [oursSame, same, kept])⟩)
    · have theirsSame := either.resolve_left oursSame
      have kept := fromOurs.resolve_left oursSame
      exact Or.inr (Or.inr ⟨by rw [← accountsOf_of_get theirsSame, held],
        fun same => oursSame (by rw [theirsSame, same, kept])⟩)
  constructor
  · rintro one ⟨left, right, first, second, differ, atLeft, leftChanged, atRight, rightChanged,
      providers, firstDefault, secondDefault⟩
    obtain ⟨-, leftOurs, -⟩ := picked_of_merge picked (objects_of_accountsOf atLeft)
    obtain ⟨-, -, rightTheirs⟩ := picked_of_merge picked (objects_of_accountsOf atRight)
    have mergedLeft : accountsOf P epoch merged left = some first := by
      rw [accountsOf_of_get (leftOurs.resolve_right leftChanged), atLeft]
    have mergedRight : accountsOf P epoch merged right = some second := by
      rw [accountsOf_of_get (rightTheirs.resolve_right rightChanged), atRight]
    exact differ (one.single mergedLeft mergedRight providers firstDefault secondDefault)
  · intro clash
    constructor
    · intro path account held
      rcases side held with ⟨oursHeld, -⟩ | ⟨oursHeld, -⟩ | ⟨theirsHeld, -⟩
      · exact oursOne.named oursHeld
      · exact oursOne.named oursHeld
      · exact theirsOne.named theirsHeld
    · intro left right first second atLeft atRight providers firstDefault secondDefault
      by_contra differ
      have both {held} (one : OneDefaultEach P held) (first' : held left = some first)
          (second' : held right = some second) : False :=
        differ (one.single first' second' providers firstDefault secondDefault)
      rcases side atLeft with ⟨oursLeft, theirsLeft⟩ | ⟨oursLeft, changed⟩ | ⟨theirsLeft, changed⟩
      · rcases side atRight with ⟨oursRight, -⟩ | ⟨oursRight, -⟩ | ⟨theirsRight, -⟩
        · exact both oursOne oursLeft oursRight
        · exact both oursOne oursLeft oursRight
        · exact both theirsOne theirsLeft theirsRight
      · rcases side atRight with ⟨oursRight, -⟩ | ⟨oursRight, -⟩ | ⟨theirsRight, changed'⟩
        · exact both oursOne oursLeft oursRight
        · exact both oursOne oursLeft oursRight
        · exact clash ⟨left, right, first, second, differ, oursLeft, changed, theirsRight,
            changed', providers, firstDefault, secondDefault⟩
      · rcases side atRight with ⟨-, theirsRight⟩ | ⟨oursRight, changed'⟩ | ⟨theirsRight, -⟩
        · exact both theirsOne theirsLeft theirsRight
        · exact clash ⟨right, left, second, first, Ne.symm differ, oursRight, changed', theirsLeft,
            changed, providers.symm, secondDefault, firstDefault⟩
        · exact both theirsOne theirsLeft theirsRight

end Merge

variable (keys : VaultKeys)

/-- A snapshot that, if it is accepted, has one default account for each provider. -/
def SnapshotDefaults (bytes : Bytes) : Prop :=
  ∀ session : Session, session.rootKey = keys.rootKey → session.header.vaultId = keys.vaultId →
    ∀ snapshot payload, session.decodeSnapshot P bytes = .ok (snapshot, payload) →
      ∀ epoch indexKey,
        unwrapEpochAndIndexKeys P keys.rootKey snapshot.header .unlockFailed =
          .ok (epoch, indexKey) →
        OneDefaultEach P (accountsOf P epoch (contents P payload))

/-- A merge of the fleet combines two sides that clash. -/
def FleetAction.Clashes (fleet : Fleet) : FleetAction → Prop
  | .merge device _ remote base =>
    let vault := fleet.vaults device
    ∃ remoteSnapshot remotePayload baseSnapshot basePayload,
      vault.session.decodeSnapshot P remote = .ok (remoteSnapshot, remotePayload) ∧
      vault.session.decodeSnapshot P base = .ok (baseSnapshot, basePayload) ∧
      DefaultsClash P vault.session.epochKey vault.disk.files (contents P remotePayload)
        (contents P basePayload)
  | _ => False

/-- The actions of devices that work on accounts and merge what they did. -/
def FleetAction.OnAccounts : FleetAction → Prop
  | .operate _ operation => operation.OnAccounts
  | .publish .. | .merge .. | .apply .. => True
  | _ => False

/-- Every vault and every snapshot handed out has one default account for each provider. -/
structure Fleet.Defaults (fleet : Fleet) : Prop where
  /-- The files are well formed. -/
  invariant : fleet.Invariant P keys True
  /-- Every vault has one default for each provider. -/
  vaults : ∀ device, OneDefaultEach P ((fleet.vaults device).accounts P)
  /-- Every snapshot has. -/
  snapshots : ∀ bytes ∈ fleet.snapshots, SnapshotDefaults P keys bytes

section Steps

variable {P keys} {erased : Prop} {vault : Vault}

/-- A snapshot of a vault's files, under its own header, has the accounts of the files. -/
theorem Sane.snapshotDefaults (sane : Sane P keys erased vault) {draw : SnapshotDraw}
    {files : VaultExportPayload} {parents : List SnapshotId} {version : UInt16}
    (one : OneDefaultEach P (accountsOf P vault.session.epochKey (contents P files))) :
    SnapshotDefaults P keys (encodeSnapshotWithHeader P vault.session.rootKey draw
      vault.session.header files parents version) := by
  intro session rootKey _ snapshot payload decoded epoch indexKey unlocks
  rw [sane.rootKey, ← rootKey] at decoded
  obtain ⟨rfl, rfl⟩ := decode_encode P decoded
  have own := sane.unlocks
  rw [sane.rootKey] at own
  have same : vault.session.epochKey = epoch := by
    have both := own.symm.trans unlocks
    simp only [Except.ok.injEq, Prod.mk.injEq] at both
    exact both.1
  rwa [← same]

/-- A vault that installed a snapshot has its accounts. -/
theorem accounts_finished {draws : SyncPath → EnvelopeDraw} {bytes : Bytes}
    {snapshot : VaultSyncSnapshot} {entries : List (SyncPath × Bytes)} {epoch : VaultEpochKey}
    {indexKey : Key} (decodes : Decodes P vault.session bytes snapshot entries epoch) :
    (finished P draws (vault.withPending (some bytes)) snapshot entries epoch indexKey).accounts P =
      accountsOf P epoch (contents P (listEntries P entries)) := by
  refine accountsOf_congr P fun path object => ?_
  change (finishedFiles P draws vault.session snapshot entries epoch vault.disk.files)[path]? = _
  rw [get_finishedFiles P _ _ _ _ decodes.distinct (decodes.noAudit_of_ne P),
    if_pos (Or.inr (by simp [object])), contents_listEntries]

/-- A merge of a vault with a snapshot has one default account for each provider exactly when the
two did not clash. -/
theorem Sane.merge_defaults_iff (sane : Sane P keys erased vault)
    (one : OneDefaultEach P (vault.accounts P)) {remote : Bytes}
    {remoteSnapshot : VaultSyncSnapshot} {remotePayload basePayload : VaultExportPayload}
    {merged : Table SyncPath Bytes} (snapshots : SnapshotDefaults P keys remote)
    (remoteDecoded : vault.session.decodeSnapshot P remote = .ok (remoteSnapshot, remotePayload))
    (header : remoteSnapshot.header = vault.session.header)
    (picked : Table.merge (withoutAudit vault.disk.files) (syncedFiles P remotePayload)
      (syncedFiles P basePayload) = some merged) :
    OneDefaultEach P (accountsOf P vault.session.epochKey merged) ↔
      ¬ DefaultsClash P vault.session.epochKey vault.disk.files (contents P remotePayload)
        (contents P basePayload) := by
  have unlocks := sane.unlocks
  rw [← header, sane.rootKey] at unlocks
  exact oneDefaultEach_merge_iff one (snapshots vault.session sane.rootKey sane.vaultId _ _
    remoteDecoded _ _ unlocks) picked

/-- An action on accounts keeps one default for each provider, unless it merges a clash. -/
theorem Fleet.Defaults.step {fleet next : Fleet} {action : FleetAction}
    (held : fleet.Defaults P keys) (about : action.OnAccounts) (agrees : ¬ action.Clashes P fleet)
    (stepped : Fleet.Step P keys fleet action next) : next.Defaults P keys := by
  have invariant : next.Invariant P keys True := held.invariant.step (fun _ => trivial) stepped
  cases stepped with
  | operate device operation =>
    have tidied := Program.wp_final _ _ (wp_operation_accounts operation about (held.vaults device))
    exact ⟨invariant, Fleet.forall_setVault (fun vault => OneDefaultEach P (vault.accounts P))
      held.vaults tidied.one, held.snapshots⟩
  | publish device draw parents =>
    refine ⟨invariant, held.vaults, fun bytes member => ?_⟩
    rcases List.mem_cons.mp member with rfl | earlier
    · refine (held.invariant.sane device).snapshotDefaults ?_
      have same : accountsOf P (fleet.vaults device).session.epochKey
          (contents P (listing P (withoutAudit (fleet.vaults device).disk.files))) =
            (fleet.vaults device).accounts P := by
        refine accountsOf_congr P fun path object => ?_
        simp [object]
      change OneDefaultEach P (accountsOf P _
        (contents P (listing P (withoutAudit (fleet.vaults device).disk.files))))
      rw [same]
      exact held.vaults device
    · exact held.snapshots bytes earlier
  | merge device draw remote base bytes handed merged =>
    refine ⟨invariant, held.vaults, fun other member => ?_⟩
    rcases List.mem_cons.mp member with rfl | earlier
    · obtain ⟨remoteSnapshot, remotePayload, baseSnapshot, basePayload, files, remoteDecoded,
        baseDecoded, header, -, picked, rfl⟩ := (mergeSyncSnapshot_eq_some P).mp merged
      have sane := held.invariant.sane device
      refine sane.snapshotDefaults ?_
      rw [contents_listing]
      refine (sane.merge_defaults_iff (held.vaults device) (held.snapshots remote handed)
        remoteDecoded header picked).mpr fun clash => agrees ?_
      exact ⟨_, _, _, _, remoteDecoded, baseDecoded, clash⟩
    · exact held.snapshots other earlier
  | apply device draws bytes handed =>
    have sane := held.invariant.sane device
    have applied : (applySyncSnapshot P draws bytes).wp (fun _ => True)
        (fun _ left => OneDefaultEach P (left.accounts P))
        (fun _ left => OneDefaultEach P (left.accounts P)) (fleet.vaults device) := by
      refine Program.wp_mono (sane.wp_applySyncSnapshot draws bytes) (fun _ left => left) ?_ ?_
      · rintro _ _ ⟨rfl, -⟩
        exact held.vaults device
      · rintro _ _ ⟨snapshot, entries, epoch, indexKey, decodes, unlocks, rfl⟩
        have decoded := (decodeSnapshot_eq_ok P).mpr ⟨entries, epoch, rfl, decodes⟩
        rw [sane.rootKey] at unlocks
        rw [accounts_finished decodes]
        exact held.snapshots bytes handed _ sane.rootKey sane.vaultId _ _ decoded _ _ unlocks
    exact ⟨invariant, Fleet.forall_setVault (fun vault => OneDefaultEach P (vault.accounts P))
      held.vaults (Program.wp_final _ _ applied), held.snapshots⟩
  | dropAudit | reopen | journal | rotate => exact about.elim

end Steps

/-- No two live accounts of one provider in a vault are defaults. -/
def Vault.OneDefault (vault : Vault) : Prop :=
  ∀ left ∈ vault.oauthRecordPaths P, ∀ right ∈ vault.oauthRecordPaths P, ∀ first second,
    vault.decryptOAuthPath P left = .ok first → vault.decryptOAuthPath P right = .ok second →
      first.provider = second.provider → first.isDefault = true → second.isDefault = true →
        left = right

/-- In a run whose merges combine no clash, no provider has two default accounts on any
device. -/
theorem oneDefault_of_runs (fleet : Fleet)
    (reached : (fleetSystem P keys).Reachable
      (fun fleet action => action.OnAccounts ∧ ¬ action.Clashes P fleet) fleet) (device : ℕ) :
    (fleet.vaults device).OneDefault P := by
  have held : fleet.Defaults P keys := by
    refine reached.invariant _ ?_ fun state action next held meets stepped =>
      held.step meets.1 meets.2 stepped
    rintro state ⟨none, fresh⟩
    have initial : state.Invariant P keys True :=
      Fleet.invariant_of_reachable (.start ⟨none, fresh⟩)
    refine ⟨initial, fun device => ?_, by simp [none]⟩
    have empty : (state.vaults device).accounts P = fun _ => Option.none := by
      funext path
      simp [Vault.accounts, accountsOf, (fresh device).2]
    rw [empty]
    exact ⟨by simp, by simp⟩
  intro left leftListed right rightListed first second atLeft atRight
  exact (held.vaults device).single
    ((decryptOAuthPath_eq_ok P (objects_of_mem_oauthRecordPaths P leftListed)).mp atLeft)
    ((decryptOAuthPath_eq_ok P (objects_of_mem_oauthRecordPaths P rightListed)).mp atRight)

/-- A default account of one provider. -/
def sampleAccount (id : Uuid) : ManagedOAuthAccount where
  id := id
  provider := .codex
  accountIdentity := none
  chatgptAccountId := none
  accessToken := ""
  refreshToken := ""
  idToken := none
  expiresAtMs := 0
  lastRefreshMs := 0
  entryId := none
  isDefault := true
  requiresReauth := false
  authenticatedAt := 0

/-- The draws of one operation on accounts. -/
def sampleOAuthDraws : OAuthDraws := ⟨fun _ => sampleEvent.object, sampleEvent.object, sampleEvent⟩

/-- A device adds a default account, and it is the only one. -/
theorem oneDefault_of_runs_sample :
    (((sampleFleet StandIn.platform).operated StandIn.platform 0
      (.addOAuth sampleOAuthDraws (sampleAccount 3))).vaults 0).OneDefault StandIn.platform := by
  refine oneDefault_of_runs StandIn.platform sampleKeys _ (.step (.start (init_sampleFleet _)) ?_
    (Fleet.Step.operate 0 (.addOAuth sampleOAuthDraws (sampleAccount 3)))) 0
  exact ⟨trivial, id⟩

/-- A vault without files that adds a default account holds its record, and nothing else outside
`audit/`. -/
theorem wp_addOAuthAccount_empty {vault : Vault} (empty : vault.disk.files = ∅)
    (account : ManagedOAuthAccount) :
    (addOAuthAccount P sampleOAuthDraws account).wp (fun _ => True) (fun _ _ => False)
      (fun _ left => left.session = vault.session ∧
        ∃ bytes, accountOf P vault.session.epochKey bytes = some account ∧
          withoutAudit left.disk.files =
            (∅ : Table SyncPath Bytes).insert (recordPath P account.id) bytes) vault := by
  have written : (do
      writeOAuthRecord P sampleOAuthDraws.written account
      audit P sampleOAuthDraws.event "oauth.create" (some account.id) none :
        Program Vault VaultError Unit).wp (fun _ => True) (fun _ _ => False)
      (fun _ left => left.session = vault.session ∧
        ∃ bytes, accountOf P vault.session.epochKey bytes = some account ∧
          withoutAudit left.disk.files =
            (∅ : Table SyncPath Bytes).insert (recordPath P account.id) bytes) vault := by
    simp only [writeOAuthRecord, Program.wp_bind, wp_writeEnvelope, true_and]
    refine wp_audit P fun files same =>
      ⟨trivial, rfl, _, accountOf_build P vault sampleOAuthDraws.written account, ?_⟩
    refine Table.ext_get fun path => ?_
    have object : (recordPath P account.id).dir = .objects := rfl
    rw [Vault.withFiles_files, get_withoutAudit]
    by_cases outside : path.dir = .audit
    · have elsewhere : recordPath P account.id ≠ path := by
        rintro rfl
        simp [object] at outside
      simp [outside, elsewhere]
    · rw [if_neg outside, same path outside, Vault.withFiles_files, empty]
  have nothing : vault.oauthRecordPaths P = [] := by
    have none : vault.disk.files.keys = [] := by simp [empty]
    simp [Vault.oauthRecordPaths, objectPaths, none]
  simp only [addOAuthAccount]
  split
  case isTrue =>
    simp only [Program.wp_bind, clearDefaultOAuthFor, Program.wp_read, nothing, List.forM]
    simpa only [Program.wp_bind, Program.wp_pure] using written
  case isFalse => exact written

/-- Distinct accounts have distinct records. -/
theorem recordPath_injective : Function.Injective (recordPath P) := by
  intro left right same
  have texts : P.uuidText left = P.uuidText right := congrArg SyncPath.stem same
  exact Option.some.inj (by rw [← P.parseUuid_uuidText left, texts, P.parseUuid_uuidText])

/-- The record of one account. -/
def oneRecord (id : Uuid) (bytes : Bytes) : Table SyncPath Bytes :=
  (∅ : Table SyncPath Bytes).insert (recordPath P id) bytes

/-- Two vaults that each added a record to an empty base merge into both records. -/
theorem merge_records {first second : Uuid} (differ : first ≠ second) (left right : Bytes) :
    Table.merge (oneRecord P first left) (oneRecord P second right) ∅ =
      some ((oneRecord P first left).insert (recordPath P second) right) := by
  rw [Table.merge_eq_some]
  intro path
  have paths : recordPath P first ≠ recordPath P second :=
    (recordPath_injective P).ne differ
  by_cases atSecond : recordPath P second = path
  · subst atSecond
    simp [oneRecord, paths, choose]
  · simp [oneRecord, atSecond, choose]

/-- A snapshot of a sane vault is accepted by every session of the vault. -/
theorem Sane.decode_export {P : Platform} {keys : VaultKeys} {vault : Vault}
    (sane : Sane P keys True vault) {session : Session} (rootKey : session.rootKey = keys.rootKey)
    (vaultId : session.header.vaultId = keys.vaultId) (draw : SnapshotDraw)
    (parents : List SnapshotId) :
    session.decodeSnapshot P (vault.exportSyncSnapshotWithParents P draw parents) =
      .ok (encodedSnapshot P vault.session.rootKey draw vault.session.header
        (listing P (withoutAudit vault.disk.files)) parents 2,
        listing P (withoutAudit vault.disk.files)) := by
  refine sane.decode_files rootKey vaultId draw _ parents fun path held found => ?_
  obtain ⟨outside, found⟩ := get_of_withoutAudit found
  exact ⟨outside, sane.wellFormed found⟩

/-- Installing a snapshot of files outside `audit/` that a sane vault encoded succeeds. -/
theorem Sane.accounts_apply {P : Platform} {keys : VaultKeys} {vault : Vault}
    (sane : Sane P keys True vault) (draws : ApplyDraws) (draw : SnapshotDraw)
    {files : Table SyncPath Bytes}
    (stored : ∀ (path : SyncPath) (held : Bytes), files[path]? = some held → path.dir ≠ .audit ∧
      ∃ envelope, WellFormed P True keys.vaultId vault.session.epochKey path held envelope) :
    ((applySyncSnapshot P draws (vault.session.encodeSyncSnapshot P draw (listing P files) [])).run
      vault).final.accounts P = accountsOf P vault.session.epochKey files := by
  have decoded := sane.decode_files sane.rootKey sane.vaultId draw files [] stored
  have applied : (applySyncSnapshot P draws
      (vault.session.encodeSyncSnapshot P draw (listing P files) [])).wp (fun _ => True)
        (fun _ _ => False)
        (fun _ left => left.accounts P = accountsOf P vault.session.epochKey files) vault := by
    refine Program.wp_mono (sane.wp_applySyncSnapshot draws _) (fun _ left => left) ?_ ?_
    · rintro error _ ⟨-, refused⟩
      simp [decoded] at refused
    · rintro _ _ ⟨snapshot, entries, epoch, indexKey, decodes, unlocks, rfl⟩
      have same := decoded.symm.trans ((decodeSnapshot_eq_ok P).mpr ⟨entries, epoch, rfl, decodes⟩)
      simp only [Except.ok.injEq, Prod.mk.injEq] at same
      obtain ⟨rfl, listed⟩ := same
      have own := sane.unlocks.symm.trans unlocks
      simp only [Except.ok.injEq, Prod.mk.injEq] at own
      rw [accounts_finished decodes, ← listed, contents_listing, own.1]
  exact Program.wp_total _ applied

/-- Two devices add a default account each, and a merge gives one vault both. -/
theorem merged_defaults_clash :
    ¬ ∀ (P : Platform) (keys : VaultKeys) (fleet : Fleet),
      (fleetSystem P keys).Reachable (fun _ action => action.OnAccounts) fleet →
        ∀ device, (fleet.vaults device).OneDefault P := by
  intro claimed
  let P := StandIn.platform
  let draw := Sample.snapshotDraw
  let start := sampleFleet P
  let base := (start.vaults 0).exportSyncSnapshotWithParents P draw []
  let left := ((start.addSnapshot base).operated P 0 (.addOAuth sampleOAuthDraws (sampleAccount 3)))
  let both := left.operated P 1 (.addOAuth sampleOAuthDraws (sampleAccount 4))
  let remote := (both.vaults 1).exportSyncSnapshotWithParents P draw []
  let shared := both.addSnapshot remote
  have reached : (fleetSystem P sampleKeys).Reachable (fun _ action => action.OnAccounts) shared := by
    refine .step (.step (.step (.step (.start (init_sampleFleet P)) ?_
      (Fleet.Step.publish 0 draw [])) ?_ (Fleet.Step.operate 0 (.addOAuth sampleOAuthDraws
      (sampleAccount 3)))) ?_ (Fleet.Step.operate 1 (.addOAuth sampleOAuthDraws
      (sampleAccount 4)))) ?_ (Fleet.Step.publish 1 draw [])
    all_goals trivial
  have held : shared.Invariant P sampleKeys True :=
    Fleet.invariant_of_reachable (reached.mono fun _ _ _ _ => trivial)
  have sane := held.sane 0
  have sane' := held.sane 1
  -- Each device holds one record, of an account that is a default.
  obtain ⟨session, first, firstAccount, files⟩ : (shared.vaults 0).session =
      Sample.session P (Sample.epochKey 5) ∧ ∃ bytes,
        accountOf P (Sample.epochKey 5) bytes = some (sampleAccount 3) ∧
        withoutAudit (shared.vaults 0).disk.files = oneRecord P 3 bytes :=
    Program.wp_total _ (wp_addOAuthAccount_empty P rfl (sampleAccount 3))
  obtain ⟨session', second, secondAccount, files'⟩ : (shared.vaults 1).session =
      Sample.session P (Sample.epochKey 5) ∧ ∃ bytes,
        accountOf P (Sample.epochKey 5) bytes = some (sampleAccount 4) ∧
        withoutAudit (shared.vaults 1).disk.files = oneRecord P 4 bytes :=
    Program.wp_total _ (wp_addOAuthAccount_empty P rfl (sampleAccount 4))
  let merged := (oneRecord P 3 first).insert (recordPath P 4) second
  have initial : start.Invariant P sampleKeys True :=
    Fleet.invariant_of_reachable (.start (init_sampleFleet P))
  have empty : withoutAudit (start.vaults 0).disk.files = ∅ :=
    Table.ext_get fun path => by simp [start, sampleFleet, Sample.vault]
  have remoteDecoded := sane'.decode_export sane.rootKey sane.vaultId draw []
  have baseDecoded := (initial.sane 0).decode_export sane.rootKey sane.vaultId draw []
  have picked : Table.merge (withoutAudit (shared.vaults 0).disk.files)
      (syncedFiles P (listing P (withoutAudit (shared.vaults 1).disk.files)))
      (syncedFiles P (listing P (withoutAudit (start.vaults 0).disk.files))) = some merged := by
    rw [syncedFiles_listing, syncedFiles_listing, withoutAudit_withoutAudit,
      withoutAudit_withoutAudit, files, files', empty]
    exact merge_records P (by decide) first second
  let bytes := (shared.vaults 0).session.encodeSyncSnapshot P draw (listing P merged) []
  have result : (shared.vaults 0).mergeSyncSnapshot P draw remote base = .ok (some bytes) := by
    refine (mergeSyncSnapshot_eq_some P).mpr
      ⟨_, _, _, _, merged, remoteDecoded, baseDecoded, ?_, ?_, picked, rfl⟩
    · rw [session, session']
      rfl
    · rw [session]
      rfl
  have installed : (fleetSystem P sampleKeys).Reachable (fun _ action => action.OnAccounts)
      ((shared.addSnapshot bytes).setVault 0
        ((applySyncSnapshot P sampleDraws bytes).run (shared.vaults 0)).final) := by
    refine .step (.step reached ?_ (Fleet.Step.merge 0 draw remote base bytes ?_ result)) ?_
      (Fleet.Step.apply 0 sampleDraws bytes List.mem_cons_self)
    · trivial
    · exact List.mem_cons_self
    · trivial
  have one := claimed P sampleKeys _ installed 0
  simp only [Fleet.setVault, Function.update_self] at one
  have stored : ∀ (path : SyncPath) (held : Bytes), merged[path]? = some held → path.dir ≠ .audit ∧
      ∃ envelope, WellFormed P True sampleKeys.vaultId (shared.vaults 0).session.epochKey path held
        envelope := by
    intro path held found
    have epochs : (shared.vaults 1).session.epochKey = (shared.vaults 0).session.epochKey := by
      rw [session, session']
    have own : (withoutAudit (shared.vaults 0).disk.files)[path]? = some held ∨
        (withoutAudit (shared.vaults 1).disk.files)[path]? = some held := by
      rw [files, files']
      rw [Table.get_insert] at found
      split at found
      case isTrue atSecond => exact Or.inr (by rw [oneRecord, Table.get_insert, if_pos atSecond, found])
      case isFalse => exact Or.inl found
    rcases own with ours | theirs
    · obtain ⟨outside, ours⟩ := get_of_withoutAudit ours
      exact ⟨outside, sane.wellFormed ours⟩
    · obtain ⟨outside, theirs⟩ := get_of_withoutAudit theirs
      rw [← epochs]
      exact ⟨outside, sane'.wellFormed theirs⟩
  have accounts := sane.accounts_apply sampleDraws draw stored
  have epoch : (shared.vaults 0).session.epochKey = Sample.epochKey 5 := by
    rw [session]
    rfl
  have paths : recordPath P 3 ≠ recordPath P 4 := (recordPath_injective P).ne (by decide)
  rw [epoch] at accounts
  have atFirst : accountsOf P (Sample.epochKey 5) merged (recordPath P 3) =
      some (sampleAccount 3) := by
    have held : merged[recordPath P 3]? = some first := by
      rw [Table.get_insert, if_neg paths.symm, oneRecord, Table.get_insert, if_pos rfl]
    exact (accountsOf_object P rfl held).trans firstAccount
  have atSecond : accountsOf P (Sample.epochKey 5) merged (recordPath P 4) =
      some (sampleAccount 4) := by
    have held : merged[recordPath P 4]? = some second := by
      rw [Table.get_insert, if_pos rfl]
    exact (accountsOf_object P rfl held).trans secondAccount
  rw [← accounts] at atFirst atSecond
  exact paths (one _ (mem_oauthRecordPaths P atFirst) _ (mem_oauthRecordPaths P atSecond) _ _
    ((decryptOAuthPath_eq_ok P rfl).mpr atFirst) ((decryptOAuthPath_eq_ok P rfl).mpr atSecond)
    rfl rfl rfl)

end Aipass
