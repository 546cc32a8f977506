import Aipass.Base.Sorting
import Aipass.Browser.Hosts
import Aipass.Vault.Grants
import Mathlib.Data.List.Lex

/-!
# Lookups by the origin of a page

The browser looks up the entries of a page by its origin, else by its address, and gets grants for
the keys of the first of them. An entry is of the site of a page if a domain of it is the host of the
page or a part of it behind a point, or if an endpoint of it has that host. The lookup finds exactly
these wherever the vault's cuts and the grammar of URLs read the domains and the endpoints of each
entry alike, or two wrong readings make up for each other.
-/
namespace Aipass.Browser

open Text

/-- A record of a provider, as far as a lookup reads it. -/
structure Entry where
  id : Uuid
  title : List Char
  deletedAt : Option OffsetDateTime
  archivedAt : Option OffsetDateTime
  domains : List (List Char)
  /-- The URLs of the endpoints that have one. -/
  urls : List (List Char)
  keys : ProviderRecordPlaintext

/-- An entry is neither deleted nor archived. -/
def Entry.Live (entry : Entry) : Prop := entry.deletedAt = none ∧ entry.archivedAt = none

instance (entry : Entry) : Decidable entry.Live := inferInstanceAs (Decidable (_ ∧ _))

/-- `TtlGrantSummary`, as far as it says whose key is granted. -/
structure FillGrant where
  entryId : Uuid
  secretId : Option String
deriving DecidableEq

/-- `BrowserContextLookupData`. -/
structure BrowserContextLookupData where
  entries : List Entry
  grants : List FillGrant

/-- `BROWSER_FILL_GRANT_LIMIT`. -/
def browserFillGrantLimit : ℕ := 5

variable (table : Lowercase) (fingerprint : String → String)

/-- `Vault::list_provider_summaries`. -/
def listProviderSummaries (entries : List Entry) : List Entry :=
  sortByKey (fun entry => lowercase table entry.title) (entries.filter fun entry => entry.Live)

/-- A host is that of a domain, or ends in it behind a point. -/
def HostOfDomain (host domain : List Char) : Prop :=
  host = lowercase table domain ∨ ('.' :: lowercase table domain) <:+ host

instance (host domain : List Char) : Decidable (HostOfDomain table host domain) :=
  inferInstanceAs (Decidable (_ ∨ _))

/-- The test of `Vault::lookup_by_origin`. -/
def Entry.Found (entry : Entry) (host : List Char) : Prop :=
  (∃ domain ∈ entry.domains, HostOfDomain table host domain) ∨
    ∃ url ∈ entry.urls, hostFromOrigin table url = host

instance (entry : Entry) (host : List Char) : Decidable (entry.Found table host) :=
  inferInstanceAs (Decidable (_ ∨ _))

/-- `Vault::lookup_by_origin`. -/
def lookupByOrigin (entries : List Entry) (originOrUrl : List Char) : List Entry :=
  let host := hostFromOrigin table originOrUrl
  (listProviderSummaries table entries).filter fun entry => entry.Found table host

/-- `Vault::create_secret_grants_for_entry`. -/
def createSecretGrantsForEntry (entry : Entry) (limit : ℕ) : List FillGrant :=
  ((entry.keys.entry.secretRefs.take (max limit 1)).filter fun secret =>
      entry.keys.secrets[secret.id]?.isSome).map fun secret =>
    { entryId := entry.id, secretId := some secret.id }

/-- `Vault::create_secret_grant`. -/
def createSecretGrant (entry : Entry) : Except VaultError FillGrant := do
  let secretRef ← okOr .recordNotFound (entry.keys.selected primarySecretField)
  let secret ← okOr .recordNotFound entry.keys.secrets[secretRef.id]?
  return { entryId := entry.id, secretId := entry.keys.idOfFingerprint (fingerprint secret) }

/-- The grants of `create_browser_fill_grants` for one entry. -/
def grantsOf (entry : Entry) : Except VaultError (List FillGrant) := do
  let issued := createSecretGrantsForEntry entry browserFillGrantLimit
  if issued.isEmpty then
    let grant ← createSecretGrant fingerprint entry
    return [grant]
  return issued

/-- `create_browser_fill_grants`. -/
def createBrowserFillGrants : List Entry → Except VaultError (List FillGrant)
  | [] => .ok []
  | entry :: entries => do
    let issued ← grantsOf fingerprint entry
    let grants ← createBrowserFillGrants entries
    return issued ++ grants

/-- The entries of a lookup by an origin, else by a URL. -/
def contextEntries (entries : List Entry) (origin url : List Char) : List Entry :=
  let found := lookupByOrigin table entries origin
  (if found.isEmpty then lookupByOrigin table entries url else found).take browserFillGrantLimit

/-- The answer to `AgentRequest::BrowserContextLookup`. -/
def browserContextLookup (entries : List Entry) (origin url : List Char) :
    Except VaultError BrowserContextLookupData := do
  let found := contextEntries table entries origin url
  let grants ← createBrowserFillGrants fingerprint found
  return { entries := found, grants }

/-- An entry is of the site of a URL: a domain that is not empty is the host of the URL or a part of
it behind a point, or an endpoint has the same host. -/
def Entry.OfSite (entry : Entry) (value : List Char) : Prop :=
  ∃ host, realHost table value = some host ∧
    ((∃ domain ∈ entry.domains, domain ≠ [] ∧ HostOfDomain table host domain) ∨
      ∃ url ∈ entry.urls, realHost table url = some host)

/-- A lookup returns exactly the live entries of the site. -/
def FindsSite (entries : List Entry) (value : List Char) : Prop :=
  ∀ entry, entry ∈ lookupByOrigin table entries value ↔
    entry ∈ entries ∧ entry.Live ∧ entry.OfSite table value

/-- Grants are for the entries of the site of the page. -/
def GrantsSite (entries : List Entry) (page : Page) : Prop :=
  ∀ data, browserContextLookup table fingerprint entries page.origin page.address = .ok data →
    ∀ grant ∈ data.grants, ∃ entry ∈ entries, entry.Live ∧ entry.id = grant.entryId ∧
      entry.OfSite table page.address

/-- What an entry is found by: a domain or an endpoint. -/
inductive Locator
  | domain (text : List Char)
  | endpoint (url : List Char)

/-- The domains and the endpoints of an entry. -/
def Entry.locators (entry : Entry) : List Locator :=
  entry.domains.map .domain ++ entry.urls.map .endpoint

/-- A domain or an endpoint is that of the page, as the vault cuts hosts out. -/
def Page.Cut (page : Page) : Locator → Prop
  | .domain text => HostOfDomain table (beforeFirst ':' page.hostText) text
  | .endpoint url => hostFromOrigin table url = beforeFirst ':' page.hostText

/-- A domain or an endpoint is that of the page, as URLs name hosts. -/
def Page.Names (page : Page) : Locator → Prop
  | .domain text => text ≠ [] ∧ HostOfDomain table page.hostText text
  | .endpoint url => realHost table url = some page.hostText

/-- Whatever the cuts take wrongly for the page's stands beside something that is the page's, and
whatever they overlook stands beside something they take for the page's. -/
def Page.ReadsAlike (page : Page) (entry : Entry) : Prop :=
  (∀ locator ∈ entry.locators, page.Cut table locator → ¬page.Names table locator →
    ∃ other ∈ entry.locators, page.Names table other) ∧
  (∀ locator ∈ entry.locators, page.Names table locator → ¬page.Cut table locator →
    ∃ other ∈ entry.locators, page.Cut table other)

variable {table} {fingerprint}

/-- The listed providers are the live ones. -/
theorem mem_listProviderSummaries {entries : List Entry} {entry : Entry} :
    entry ∈ listProviderSummaries table entries ↔ entry ∈ entries ∧ entry.Live := by
  rw [listProviderSummaries, (sortByKey_perm _ _).mem_iff, List.mem_filter, decide_eq_true_eq]

/-- A lookup returns the live entries that are found by the host it cuts out. -/
theorem mem_lookupByOrigin {entries : List Entry} {value : List Char} {entry : Entry} :
    entry ∈ lookupByOrigin table entries value ↔
      entry ∈ entries ∧ entry.Live ∧ entry.Found table (hostFromOrigin table value) := by
  rw [lookupByOrigin, List.mem_filter, mem_listProviderSummaries, decide_eq_true_eq, and_assoc]

/-- Every grant for an entry names that entry. -/
theorem entryId_of_grantsOf {entry : Entry} {issued : List FillGrant}
    (answer : grantsOf fingerprint entry = .ok issued) : ∀ grant ∈ issued, grant.entryId = entry.id := by
  rw [grantsOf] at answer
  split at answer
  · rw [createSecretGrant] at answer
    cases selected : okOr VaultError.recordNotFound (entry.keys.selected primarySecretField) with
    | error reason =>
      rw [selected] at answer
      cases answer
    | ok secretRef =>
      rw [selected, ok_bind] at answer
      cases stored : okOr VaultError.recordNotFound entry.keys.secrets[secretRef.id]? with
      | error reason =>
        rw [stored] at answer
        cases answer
      | ok secret =>
        rw [stored] at answer
        cases answer
        intro grant listed
        rw [List.mem_singleton] at listed
        rw [listed]
  · cases answer
    intro grant listed
    rw [createSecretGrantsForEntry] at listed
    obtain ⟨secret, _, rfl⟩ := List.mem_map.mp listed
    rfl

/-- Every grant is for one of the entries. -/
theorem mem_createBrowserFillGrants {entries : List Entry} {grants : List FillGrant}
    (answer : createBrowserFillGrants fingerprint entries = .ok grants) :
    ∀ grant ∈ grants, ∃ entry ∈ entries, entry.id = grant.entryId := by
  induction entries generalizing grants with
  | nil =>
    cases answer
    intro grant listed
    cases listed
  | cons entry entries ih =>
    rw [createBrowserFillGrants] at answer
    cases issues : grantsOf fingerprint entry with
    | error reason =>
      rw [issues] at answer
      cases answer
    | ok issued =>
      rw [issues, ok_bind] at answer
      cases others : createBrowserFillGrants fingerprint entries with
      | error reason =>
        rw [others] at answer
        cases answer
      | ok rest =>
        rw [others] at answer
        cases answer
        intro grant listed
        rcases List.mem_append.mp listed with first | later
        · exact ⟨entry, List.mem_cons_self, (entryId_of_grantsOf issues grant first).symm⟩
        · obtain ⟨other, listedOther, same⟩ := ih others grant later
          exact ⟨other, List.mem_cons_of_mem _ listedOther, same⟩

section Site

variable {page : Page}

/-- An entry is found by the host of a page where a domain or an endpoint is cut to it. -/
theorem found_iff {entry : Entry} :
    entry.Found table (beforeFirst ':' page.hostText) ↔
      ∃ locator ∈ entry.locators, page.Cut table locator := by
  simp only [Entry.Found, Entry.locators, List.mem_append, List.mem_map]
  constructor
  · rintro (⟨domain, listed, found⟩ | ⟨url, listed, found⟩)
    · exact ⟨.domain domain, .inl ⟨domain, listed, rfl⟩, found⟩
    · exact ⟨.endpoint url, .inr ⟨url, listed, rfl⟩, found⟩
  · rintro ⟨locator, ⟨domain, listed, rfl⟩ | ⟨url, listed, rfl⟩, found⟩
    · exact .inl ⟨domain, listed, found⟩
    · exact .inr ⟨url, listed, found⟩

/-- An entry is of the site of a page where a domain or an endpoint names its host. -/
theorem ofSite_iff {entry : Entry} {value : List Char}
    (host : realHost table value = some page.hostText) :
    entry.OfSite table value ↔ ∃ locator ∈ entry.locators, page.Names table locator := by
  simp only [Entry.OfSite, Entry.locators, List.mem_append, List.mem_map, host, Option.some.injEq]
  constructor
  · rintro ⟨_, rfl, ⟨domain, listed, named⟩ | ⟨url, listed, named⟩⟩
    · exact ⟨.domain domain, .inl ⟨domain, listed, rfl⟩, named⟩
    · exact ⟨.endpoint url, .inr ⟨url, listed, rfl⟩, named⟩
  · rintro ⟨locator, ⟨domain, listed, rfl⟩ | ⟨url, listed, rfl⟩, named⟩
    · exact ⟨_, rfl, .inl ⟨domain, listed, named⟩⟩
    · exact ⟨_, rfl, .inr ⟨url, listed, named⟩⟩

/-- The two readings find an entry alike where wrong readings stand beside right ones. -/
theorem readsAlike_iff {entry : Entry} : page.ReadsAlike table entry ↔
    ((∃ locator ∈ entry.locators, page.Cut table locator) ↔
      ∃ locator ∈ entry.locators, page.Names table locator) := by
  constructor
  · rintro ⟨taken, overlooked⟩
    constructor
    · rintro ⟨locator, listed, cut⟩
      by_cases named : page.Names table locator
      · exact ⟨locator, listed, named⟩
      · exact taken locator listed cut named
    · rintro ⟨locator, listed, named⟩
      by_cases cut : page.Cut table locator
      · exact ⟨locator, listed, cut⟩
      · exact overlooked locator listed named cut
  · intro same
    constructor
    · intro locator listed cut _
      exact same.mp ⟨locator, listed, cut⟩
    · intro locator listed named _
      exact same.mpr ⟨locator, listed, named⟩

/-- A lookup by a text that is cut to the host of a page and names it. -/
theorem findsSite_iff {entries : List Entry} {value : List Char}
    (cut : hostFromOrigin table value = beforeFirst ':' page.hostText)
    (host : realHost table value = some page.hostText) :
    FindsSite table entries value ↔
      ∀ entry ∈ entries, entry.Live → page.ReadsAlike table entry := by
  constructor
  · intro finds entry listed live
    have same := finds entry
    rw [mem_lookupByOrigin, cut, found_iff, ofSite_iff host] at same
    rw [readsAlike_iff]
    constructor
    · exact fun found => (same.mp ⟨listed, live, found⟩).2.2
    · exact fun named => (same.mpr ⟨listed, live, named⟩).2.2
  · intro alike entry
    rw [mem_lookupByOrigin, cut, found_iff, ofSite_iff host]
    constructor
    · rintro ⟨listed, live, found⟩
      exact ⟨listed, live, (readsAlike_iff.mp (alike entry listed live)).mp found⟩
    · rintro ⟨listed, live, named⟩
      exact ⟨listed, live, (readsAlike_iff.mp (alike entry listed live)).mpr named⟩

/-- The origin of a page names its host. -/
theorem realHost_origin : realHost table page.origin = some page.hostText := by
  rw [page.origin_eq, realHost_address]
  rfl

/-- Lookups that find the site of a page grant keys of that site alone. -/
theorem grantsSite_of_findsSite {entries : List Entry} (byOrigin : FindsSite table entries page.origin)
    (byAddress : FindsSite table entries page.address) :
    GrantsSite table fingerprint entries page := by
  intro data answer grant listed
  rw [browserContextLookup] at answer
  cases issued : createBrowserFillGrants fingerprint
      (contextEntries table entries page.origin page.address) with
  | error reason =>
    rw [issued] at answer
    cases answer
  | ok grants =>
    rw [issued] at answer
    cases answer
    obtain ⟨entry, found, same⟩ := mem_createBrowserFillGrants issued grant listed
    have site : ∀ value, realHost table value = some page.hostText →
        FindsSite table entries value → entry ∈ lookupByOrigin table entries value →
        entry ∈ entries ∧ entry.Live ∧ entry.OfSite table page.address := by
      intro value host finds inLookup
      obtain ⟨inEntries, live, ofSite⟩ := (finds entry).mp inLookup
      rw [ofSite_iff host] at ofSite
      exact ⟨inEntries, live, (ofSite_iff (realHost_address _ page)).mpr ofSite⟩
    have inLookups := List.mem_of_mem_take found
    split at inLookups
    · obtain ⟨inEntries, live, ofSite⟩ := site _ (realHost_address _ page) byAddress inLookups
      exact ⟨entry, inEntries, live, same, ofSite⟩
    · obtain ⟨inEntries, live, ofSite⟩ := site _ realHost_origin byOrigin inLookups
      exact ⟨entry, inEntries, live, same, ofSite⟩

end Site

variable (table fingerprint)

/-- The lowercase of ASCII. -/
def asciiLowercase : Lowercase where
  letter char := [if char.toNat < 128 then char.toLower else char]
  final _ _ := true
  ascii char low := by rw [if_pos low]
  foreign char high lower listed := by
    rw [if_neg (by omega), List.mem_singleton] at listed
    exact .inr (listed ▸ high)

/-- A page at an address in brackets. -/
def samplePage : Page where
  scheme := "https".toList
  isHttp := by decide
  userinfo := none
  noBreak := noBreak_none
  host := .literal "2001:db8::1".toList (forall_of_all (by decide))
  port := none
  digits := fun _ listed => by cases listed
  rest := "/".toList
  rooted := .inr ⟨[], rfl⟩

/-- An entry with an endpoint at another address that starts alike. -/
def sampleEntry : Entry where
  id := 1
  title := "Lab".toList
  deletedAt := none
  archivedAt := none
  domains := []
  urls := ["https://[2001:db8::2]/v1".toList]
  keys := { entry := { secretRefs := [{ id := "k1", label := "Key", fingerprint := "f" }]
                       lastUsedAt := none }
            secrets := (∅ : Table String String).insert "k1" "sk-1" }

end Aipass.Browser
