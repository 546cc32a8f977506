import Aipass.Base.Lowercase
import Mathlib.Data.List.TakeWhile

/-!
# The host of a page

The vault cuts the host of a page or of an endpoint out of its text: what stands before the first
slash, behind the last at sign and before the first colon. The host that a URL names is read here as
the grammar of URLs has it. For the URLs that a browser reports the two readings differ where the
host is an address in brackets with a colon in it, and only there.
-/
namespace Aipass.Browser

open Text

/-- `str::split` and `Iterator::next`: what stands before the first of a mark. -/
def beforeFirst (mark : Char) (text : List Char) : List Char := text.takeWhile fun char => char ≠ mark

/-- `str::split` and `Iterator::next_back`: what stands behind the last of a mark. -/
def afterLast (mark : Char) (text : List Char) : List Char :=
  (text.reverse.takeWhile fun char => char ≠ mark).reverse

/-- `host_from_origin`. -/
def hostFromOrigin (table : Lowercase) (value : List Char) : List Char :=
  let trimmed := lowercase table (trim value)
  let withoutScheme := ((stripPrefix "https://".toList trimmed).or
    (stripPrefix "http://".toList trimmed)).getD trimmed
  beforeFirst ':' (afterLast '@' (beforeFirst '/' withoutScheme))

/-- A text is a scheme: a letter, and then letters, digits, plus and minus signs and points. -/
def isScheme (text : List Char) : Bool :=
  (text.head?.any Char.isAlpha) && text.all fun char =>
    char.isAlphanum || char = '+' || char = '-' || char = '.'

/-- The authority of a URL: what stands behind the scheme, up to its path, query or fragment. -/
def authorityOf (text : List Char) : Option (List Char) :=
  (splitOnce "://".toList text).bind fun parts =>
    if isScheme parts.1 then
      some (parts.2.takeWhile fun char => char ≠ '/' && char ≠ '?' && char ≠ '#')
    else none

/-- The host of an authority: what stands behind the user information, up to the bracket that closes
an address or else up to the port. -/
def hostOf (authority : List Char) : List Char :=
  let host := afterLast '@' authority
  if host.head? = some '[' then beforeFirst ']' host ++ [']'] else beforeFirst ':' host

/-- The host that a URL names, in lowercase. -/
def realHost (table : Lowercase) (value : List Char) : Option (List Char) :=
  (authorityOf (trim value)).map fun authority => lowercase table (hostOf authority)

/-- A character may stand in a host as a browser writes it. -/
def HostChar (char : Char) : Prop :=
  char.toNat < 128 ∧ isWhitespace char = false ∧ char ∉ "/?#@[]".toList

instance (char : Char) : Decidable (HostChar char) := inferInstanceAs (Decidable (_ ∧ _ ∧ _))

/-- The host of a page. -/
inductive PageHost
  /-- A registered name or an IPv4 address. -/
  | name (text : List Char) (nonempty : text ≠ [])
    (valid : ∀ char ∈ text, HostChar char ∧ char ≠ ':')
  /-- An address in brackets. -/
  | literal (inside : List Char) (valid : ∀ char ∈ inside, HostChar char)

/-- The text of a host. -/
def PageHost.text : PageHost → List Char
  | name text _ _ => text
  | literal inside _ => '[' :: (inside ++ [']'])

/-- A page that a browser shows over HTTP. -/
structure Page where
  scheme : List Char
  isHttp : IsAscii scheme ∧
    (scheme.map Char.toLower = "http".toList ∨ scheme.map Char.toLower = "https".toList)
  userinfo : Option (List Char)
  noBreak : ∀ info ∈ userinfo, ∀ char ∈ info, char ≠ '/' ∧ char ≠ '?' ∧ char ≠ '#'
  host : PageHost
  port : Option (List Char)
  digits : ∀ number ∈ port, ∀ char ∈ number, char.isDigit = true
  /-- The path, the query and the fragment. -/
  rest : List Char
  rooted : rest = [] ∨ ∃ path, rest = '/' :: path

/-- The port of a page behind its host. -/
def Page.portText (page : Page) : List Char := (page.port.map fun number => ':' :: number).getD []

/-- The user information of a page before its host. -/
def Page.userText (page : Page) : List Char := (page.userinfo.map fun info => info ++ ['@']).getD []

/-- The address of a page. -/
def Page.address (page : Page) : List Char :=
  page.scheme ++ "://".toList ++ (page.userText ++ (page.host.text ++ page.portText)) ++ page.rest

/-- The origin of a page. -/
def Page.origin (page : Page) : List Char :=
  page.scheme ++ "://".toList ++ (page.host.text ++ page.portText)

/-- The host of a page, in lowercase. -/
def Page.hostText (page : Page) : List Char := page.host.text.map Char.toLower

/-- What stands before the first of a mark that is not there is everything. -/
theorem beforeFirst_of_notMem {mark : Char} {text : List Char} (absent : mark ∉ text) :
    beforeFirst mark text = text := by
  rw [beforeFirst, List.takeWhile_eq_self_iff]
  intro char listed
  exact decide_eq_true fun same => absent (same ▸ listed)

/-- What stands before the first of a mark, where that is known. -/
theorem beforeFirst_append {mark : Char} {text : List Char} (absent : mark ∉ text)
    (rest : List Char) : beforeFirst mark (text ++ mark :: rest) = text := by
  rw [beforeFirst, List.takeWhile_append_of_pos]
  · simp
  · intro char listed
    exact decide_eq_true fun same => absent (same ▸ listed)

/-- What stands before the first of a mark, where it starts what follows. -/
theorem beforeFirst_rooted {mark : Char} {rest : List Char}
    (rooted : rest = [] ∨ ∃ path, rest = mark :: path) (text : List Char) :
    beforeFirst mark (text ++ rest) = beforeFirst mark text := by
  rcases rooted with rfl | ⟨path, rfl⟩
  · rw [List.append_nil]
  · by_cases listed : mark ∈ text
    · obtain ⟨before, after, rfl, absent⟩ := List.eq_append_cons_of_mem listed
      rw [List.append_assoc, List.cons_append, beforeFirst_append absent, beforeFirst_append absent]
    · rw [beforeFirst_append listed, beforeFirst_of_notMem listed]

/-- What stands behind the last of a mark that is not there is everything. -/
theorem afterLast_of_notMem {mark : Char} {text : List Char} (absent : mark ∉ text) :
    afterLast mark text = text := by
  have absentReverse : mark ∉ text.reverse := by simpa using absent
  have whole := beforeFirst_of_notMem absentReverse
  rw [afterLast, ← beforeFirst, whole, List.reverse_reverse]

/-- What stands behind the last of a mark, where that is known. -/
theorem afterLast_append {mark : Char} {text : List Char} (absent : mark ∉ text)
    (before : List Char) : afterLast mark (before ++ mark :: text) = text := by
  have absentReverse : mark ∉ text.reverse := by simpa using absent
  have whole := beforeFirst_append absentReverse before.reverse
  rw [afterLast, ← beforeFirst, List.reverse_append, List.reverse_cons, List.append_assoc,
    List.singleton_append, whole, List.reverse_reverse]

/-- A text without white space at its end keeps what follows it up to the white space there. -/
theorem trimStart_reverse_append {text : List Char} {last : Char} (ends : text.getLast? = some last)
    (solid : isWhitespace last = false) (rest : List Char) :
    (trimStart (text ++ rest).reverse).reverse = text ++ (trimStart rest.reverse).reverse := by
  have kept : trimStart text.reverse = text.reverse := by
    cases reversed : text.reverse with
    | nil => rfl
    | cons char others =>
      have head : text.reverse.head? = some last := by rw [List.head?_reverse, ends]
      rw [reversed, List.head?_cons, Option.some.injEq] at head
      simp [trimStart, head, solid]
  rw [List.reverse_append, trimStart, List.dropWhile_append]
  split
  · next blank =>
    have none_ : trimStart rest.reverse = [] := List.isEmpty_iff.mp blank
    rw [none_]
    change (trimStart text.reverse).reverse = _
    rw [kept, List.reverse_reverse, List.reverse_nil, List.append_nil]
  · rw [List.reverse_append, List.reverse_reverse]
    rfl

/-- Trimming leaves a text as it is whose ends are no white space, and what starts with a slash
behind it. -/
theorem trim_append_rooted {text rest : List Char} {start last : Char}
    (starts : text.head? = some start) (ends : text.getLast? = some last)
    (solidStart : isWhitespace start = false) (solidLast : isWhitespace last = false)
    (rooted : rest = [] ∨ ∃ path, rest = '/' :: path) :
    ∃ kept, trim (text ++ rest) = text ++ kept ∧ (kept = [] ∨ ∃ path, kept = '/' :: path) := by
  have front : trimStart (text ++ rest) = text ++ rest := by
    cases text with
    | nil => cases starts
    | cons char others =>
      rw [List.head?_cons, Option.some.injEq] at starts
      simp [trimStart, starts, solidStart]
  refine ⟨(trimStart rest.reverse).reverse, ?_, ?_⟩
  · rw [trim, front, trimStart_reverse_append ends solidLast]
  · rcases rooted with rfl | ⟨path, rfl⟩
    · exact .inl rfl
    · refine .inr ⟨(trimStart path.reverse).reverse, ?_⟩
      exact trimStart_reverse_append (show ['/'].getLast? = some '/' from rfl) (by decide) path

/-- A printed character of ASCII is no white space. -/
theorem isWhitespace_printed {char : Char} (low : 33 ≤ char.toNat) (high : char.toNat ≤ 126) :
    isWhitespace char = false := by
  rw [isWhitespace]
  generalize char.toNat = code at low high
  simp only [Bool.or_eq_false_iff, Bool.and_eq_false_iff, decide_eq_false_iff_not]
  simp only [beq_eq_false_iff_ne]
  omega

/-- A letter is no white space. -/
theorem isWhitespace_of_isAlpha {char : Char} (letter : char.isAlpha = true) :
    isWhitespace char = false := by
  change (decide (char.val ≥ 'A'.val ∧ char.val ≤ 'Z'.val) ||
    (decide (char.val ≥ 'a'.val) && decide (char.val ≤ 'z'.val))) = true at letter
  simp only [Bool.or_eq_true, Bool.and_eq_true, decide_eq_true_eq, ge_iff_le,
    UInt32.le_iff_toNat_le] at letter
  have range : (65 ≤ char.toNat ∧ char.toNat ≤ 90) ∨ (97 ≤ char.toNat ∧ char.toNat ≤ 122) := letter
  exact isWhitespace_printed (by omega) (by omega)

/-- The code of a digit. -/
theorem toNat_of_isDigit {char : Char} (digit : char.isDigit = true) :
    48 ≤ char.toNat ∧ char.toNat ≤ 57 := by
  simp only [Char.isDigit, Bool.and_eq_true, decide_eq_true_eq, ge_iff_le,
    UInt32.le_iff_toNat_le] at digit
  exact digit

variable (table : Lowercase) (page : Page)

/-- The scheme of a page is made of letters. -/
theorem Page.scheme_letters : ∀ char ∈ page.scheme, char.isAlpha = true := by
  intro char listed
  apply isAlpha_of_toLower
  have lower : char.toLower ∈ page.scheme.map Char.toLower := List.mem_map_of_mem listed
  have letters : ∀ char ∈ "http".toList, char.isAlpha = true := forall_of_all (by decide)
  have lettersSecure : ∀ char ∈ "https".toList, char.isAlpha = true := forall_of_all (by decide)
  rcases page.isHttp.2 with http | https
  · rw [http] at lower
    exact letters _ lower
  · rw [https] at lower
    exact lettersSecure _ lower

/-- The scheme of a page is not empty. -/
theorem Page.scheme_ne_nil : page.scheme ≠ [] := by
  intro empty
  rcases page.isHttp.2 with http | https
  · rw [empty] at http
    exact absurd http (by decide)
  · rw [empty] at https
    exact absurd https (by decide)

/-- The characters of a host are of ASCII, and are no slash, no at sign and no white space. -/
theorem PageHost.mem_text (host : PageHost) {char : Char} (listed : char ∈ host.text) :
    char.toNat < 128 ∧ isWhitespace char = false ∧ char ∉ "/?#@".toList := by
  have weaker : ∀ {char}, HostChar char →
      char.toNat < 128 ∧ isWhitespace char = false ∧ char ∉ "/?#@".toList := by
    intro char valid
    refine ⟨valid.1, valid.2.1, fun marked => valid.2.2 ?_⟩
    have inside : ∀ char ∈ "/?#@".toList, char ∈ "/?#@[]".toList := forall_of_all (by decide)
    exact inside char marked
  cases host with
  | name text nonempty valid => exact weaker (valid char listed).1
  | literal inside valid =>
    rw [PageHost.text, List.mem_cons, List.mem_append, List.mem_singleton] at listed
    rcases listed with rfl | listed | rfl
    · decide
    · exact weaker (valid char listed)
    · decide

/-- The characters of a host and its port. -/
theorem Page.mem_hostPort {char : Char} (listed : char ∈ page.host.text ++ page.portText) :
    char.toNat < 128 ∧ isWhitespace char = false ∧ char ∉ "/?#@".toList := by
  rcases List.mem_append.mp listed with inHost | inPort
  · exact page.host.mem_text inHost
  · rw [Page.portText] at inPort
    cases port : page.port with
    | none =>
      rw [port] at inPort
      cases inPort
    | some number =>
      rw [port, Option.map_some, Option.getD_some, List.mem_cons] at inPort
      rcases inPort with rfl | inPort
      · decide
      · have range := toNat_of_isDigit (page.digits number port char inPort)
        have outside : ∀ mark ∈ "/?#@".toList, ¬(48 ≤ mark.toNat ∧ mark.toNat ≤ 57) :=
          forall_of_all (by decide)
        have low : char.toNat < 128 := by omega
        have solid : isWhitespace char = false := isWhitespace_printed (by omega) (by omega)
        exact ⟨low, solid, fun marked => outside char marked range⟩

/-- The text of a host is not empty. -/
theorem PageHost.text_ne_nil (host : PageHost) : host.text ≠ [] := by
  cases host with
  | name text nonempty valid => exact nonempty
  | literal inside valid => exact List.cons_ne_nil _ _

/-- The scheme of a page and the marks behind it are of ASCII. -/
theorem Page.isAscii_lead : IsAscii (page.scheme ++ "://".toList) := by
  have marks : ∀ char ∈ "://".toList, char.toNat < 128 := forall_of_all (by decide)
  intro char listed
  rcases List.mem_append.mp listed with inScheme | inMarks
  · exact page.isHttp.1 char inScheme
  · exact marks char inMarks

/-- The host of a page and its port are of ASCII. -/
theorem Page.isAscii_hostPort : IsAscii (page.host.text ++ page.portText) := fun _ listed =>
  (page.mem_hostPort listed).1

/-- What stands at the address of a page before its path. -/
def Page.front : List Char :=
  page.scheme ++ "://".toList ++ (page.userText ++ (page.host.text ++ page.portText))

/-- Trimming the address of a page leaves all but its rest as it is. -/
theorem Page.trim_address : ∃ kept, trim page.address = page.front ++ kept ∧
    (kept = [] ∨ ∃ path, kept = '/' :: path) := by
  obtain ⟨start, others, scheme⟩ := List.exists_cons_of_ne_nil page.scheme_ne_nil
  have letter : start.isAlpha = true :=
    page.scheme_letters start (by rw [scheme]; exact List.mem_cons_self)
  have hostPort : page.host.text ++ page.portText ≠ [] := by
    simp [page.host.text_ne_nil]
  obtain ⟨last, ends⟩ : ∃ last, (page.host.text ++ page.portText).getLast? = some last := by
    rw [List.getLast?_eq_getLast_of_ne_nil hostPort]
    exact ⟨_, rfl⟩
  have solidLast := (page.mem_hostPort (List.mem_of_getLast? ends)).2.1
  have starts : page.front.head? = some start := by simp [Page.front, scheme]
  have endsFront : page.front.getLast? = some last := by
    rw [Page.front, List.getLast?_append, List.getLast?_append, ends]
    rfl
  exact trim_append_rooted starts endsFront (isWhitespace_of_isAlpha letter) solidLast page.rooted

/-- The lowercase of what stands behind the marks of an address, up to the path, with nothing before
the host but the user information. -/
theorem Page.lowercase_behind {kept : List Char} (rooted : kept = [] ∨ ∃ path, kept = '/' :: path)
    (before : List Char) : ∃ lead rest,
      lowercaseFrom table before (page.userText ++ (page.host.text ++ page.portText) ++ kept) =
        lead ++ ((page.host.text ++ page.portText).map Char.toLower ++ rest) ∧
      (rest = [] ∨ ∃ path, rest = '/' :: path) ∧
      (lead = [] ∨ ∃ info, lead = info ++ ['@'] ∧ '/' ∉ info) := by
  have ends : ∀ before, ∃ rest, lowercaseFrom table before
      (page.host.text ++ page.portText ++ kept) =
        (page.host.text ++ page.portText).map Char.toLower ++ rest ∧
      (rest = [] ∨ ∃ path, rest = '/' :: path) := by
    intro before
    refine ⟨_, lowercaseFrom_append page.isAscii_hostPort before kept, ?_⟩
    rcases rooted with rfl | ⟨path, rfl⟩
    · exact .inl rfl
    · have slash : IsAscii ['/'] := by decide
      exact .inr ⟨_, lowercaseFrom_append slash _ path⟩
  cases info : page.userinfo with
  | none =>
    obtain ⟨rest, same, rootedRest⟩ := ends before
    refine ⟨[], rest, ?_, rootedRest, .inl rfl⟩
    rw [Page.userText, info, Option.map_none, Option.getD_none, List.nil_append, List.nil_append,
      same]
  | some text =>
    obtain ⟨lower, same, marks⟩ := lowercaseFrom_split table before text '@' (by decide)
      (page.host.text ++ page.portText ++ kept)
    obtain ⟨rest, sameRest, rootedRest⟩ := ends (before ++ text ++ ['@'])
    have noSlash : '/' ∉ text := fun listed => (page.noBreak text info _ listed).1 rfl
    refine ⟨lower ++ ['@'], rest, ?_, rootedRest, .inr ⟨lower, rfl, marks '/' (by decide) noSlash⟩⟩
    rw [Page.userText, info, Option.map_some, Option.getD_some, List.append_assoc, List.append_assoc,
      List.append_assoc, List.append_assoc, List.singleton_append, ← List.append_assoc page.host.text,
      same, sameRest, List.singleton_append]
    rfl

/-- The characters of a host and its port in lowercase are no slash and no at sign. -/
theorem Page.notMem_lower {mark : Char} (isMark : IsMark mark) (marked : mark ∈ "/?#@".toList) :
    mark ∉ (page.host.text ++ page.portText).map Char.toLower :=
  notMem_map_toLower isMark page.isAscii_hostPort fun listed =>
    (page.mem_hostPort listed).2.2 marked

/-- The host and the port of a page in lowercase, up to the first colon. -/
theorem Page.beforeFirst_lower :
    beforeFirst ':' ((page.host.text ++ page.portText).map Char.toLower) =
      beforeFirst ':' page.hostText := by
  rw [List.map_append]
  apply beforeFirst_rooted
  rw [Page.portText]
  cases page.port with
  | none => exact .inl rfl
  | some number => exact .inr ⟨_, rfl⟩

/-- The vault reads the host of a page up to its first colon. -/
theorem hostFromOrigin_address :
    hostFromOrigin table page.address = beforeFirst ':' page.hostText := by
  obtain ⟨kept, trimmed, rooted⟩ := page.trim_address
  obtain ⟨lead, rest, behind, rootedRest, info⟩ := page.lowercase_behind table rooted
    (page.scheme ++ "://".toList)
  have whole : lowercase table (trim page.address) = page.scheme.map Char.toLower ++
      "://".toList ++ (lead ++ ((page.host.text ++ page.portText).map Char.toLower ++ rest)) := by
    rw [trimmed, Page.front, List.append_assoc, lowercase, lowercaseFrom_append page.isAscii_lead,
      List.nil_append, behind, List.map_append]
    rfl
  have stripped : ((stripPrefix "https://".toList (lowercase table (trim page.address))).or
      (stripPrefix "http://".toList (lowercase table (trim page.address)))).getD
        (lowercase table (trim page.address)) =
      lead ++ ((page.host.text ++ page.portText).map Char.toLower ++ rest) := by
    rw [whole]
    rcases page.isHttp.2 with http | https
    · rw [http]
      have noSecure : ∀ text, stripPrefix "https://".toList ("http".toList ++ "://".toList ++ text) =
          none := fun text => rfl
      have plain : ∀ text, stripPrefix "http://".toList ("http".toList ++ "://".toList ++ text) =
          some text := fun text => rfl
      rw [noSecure, plain]
      rfl
    · rw [https]
      have secure : ∀ text, stripPrefix "https://".toList ("https".toList ++ "://".toList ++ text) =
          some text := fun text => rfl
      rw [secure]
      rfl
  have noSlash : '/' ∉ (page.host.text ++ page.portText).map Char.toLower :=
    page.notMem_lower (by decide) (by decide)
  have noAt : '@' ∉ (page.host.text ++ page.portText).map Char.toLower :=
    page.notMem_lower (by decide) (by decide)
  rw [hostFromOrigin, stripped, ← List.append_assoc, beforeFirst_rooted rootedRest]
  rw [← page.beforeFirst_lower]
  congr 1
  rcases info with rfl | ⟨text, rfl, noSlashText⟩
  · rw [List.nil_append, beforeFirst_of_notMem noSlash, afterLast_of_notMem noAt]
  · rw [beforeFirst_of_notMem, List.append_assoc, List.singleton_append, afterLast_append noAt]
    rw [List.mem_append, List.mem_append, List.mem_singleton]
    rintro ((inText | same) | inHost)
    · exact noSlashText inText
    · exact absurd same (by decide)
    · exact noSlash inHost

/-- A scheme of letters does not hold the marks behind it. -/
theorem splitOnce_scheme {scheme : List Char} (letters : ∀ char ∈ scheme, char.isAlpha = true)
    (after : List Char) :
    splitOnce "://".toList (scheme ++ ("://".toList ++ after)) = some (scheme, after) := by
  apply splitOnce_first (by decide)
  intro inside
  have slashes := inside.sublist.count_le '/'
  have noSlash : '/' ∉ scheme := fun listed => absurd (letters _ listed) (by decide)
  rw [List.count_append, List.count_eq_zero_of_not_mem noSlash] at slashes
  exact absurd slashes (by decide)

/-- A page has a scheme. -/
theorem Page.isScheme_scheme : isScheme page.scheme = true := by
  obtain ⟨start, others, scheme⟩ := List.exists_cons_of_ne_nil page.scheme_ne_nil
  rw [isScheme, Bool.and_eq_true, List.all_eq_true]
  constructor
  · rw [scheme]
    exact page.scheme_letters start (by rw [scheme]; exact List.mem_cons_self)
  · intro char listed
    simp [Char.isAlphanum, page.scheme_letters char listed]

/-- The authority of a page ends before its path. -/
theorem Page.takeWhile_authority {kept : List Char}
    (rooted : kept = [] ∨ ∃ path, kept = '/' :: path) :
    (page.userText ++ (page.host.text ++ page.portText) ++ kept).takeWhile
        (fun char => char ≠ '/' && char ≠ '?' && char ≠ '#') =
      page.userText ++ (page.host.text ++ page.portText) := by
  have inside : ∀ char ∈ page.userText ++ (page.host.text ++ page.portText),
      (char ≠ '/' && char ≠ '?' && char ≠ '#') = true := by
    intro char listed
    have apart : char ≠ '/' ∧ char ≠ '?' ∧ char ≠ '#' := by
      rcases List.mem_append.mp listed with inUser | inHost
      · rw [Page.userText] at inUser
        cases info : page.userinfo with
        | none =>
          rw [info] at inUser
          cases inUser
        | some text =>
          rw [info, Option.map_some, Option.getD_some, List.mem_append, List.mem_singleton] at inUser
          rcases inUser with inText | rfl
          · exact page.noBreak text info char inText
          · decide
      · have absent := (page.mem_hostPort inHost).2.2
        simp at absent
        exact ⟨absent.1, absent.2.1, absent.2.2.1⟩
    simp [apart]
  rw [List.takeWhile_append_of_pos inside]
  rcases rooted with rfl | ⟨path, rfl⟩
  · simp
  · simp

/-- The host of the authority of a page. -/
theorem Page.hostOf_authority :
    hostOf (page.userText ++ (page.host.text ++ page.portText)) = page.host.text := by
  have noAt : '@' ∉ page.host.text ++ page.portText := fun listed =>
    (page.mem_hostPort listed).2.2 (by decide)
  have behind : afterLast '@' (page.userText ++ (page.host.text ++ page.portText)) =
      page.host.text ++ page.portText := by
    rw [Page.userText]
    cases page.userinfo with
    | none => exact afterLast_of_notMem noAt
    | some text =>
      rw [Option.map_some, Option.getD_some, List.append_assoc, List.singleton_append]
      exact afterLast_append noAt text
  have rooted : page.portText = [] ∨ ∃ path, page.portText = ':' :: path := by
    rw [Page.portText]
    cases page.port with
    | none => exact .inl rfl
    | some number => exact .inr ⟨_, rfl⟩
  rw [hostOf, behind]
  cases host : page.host with
  | name text nonempty valid =>
    have unbracketed : (text ++ page.portText).head? ≠ some '[' := by
      obtain ⟨first, others, rfl⟩ := List.exists_cons_of_ne_nil nonempty
      intro bracket
      rw [List.cons_append, List.head?_cons, Option.some.injEq] at bracket
      exact (valid first List.mem_cons_self).1.2.2 (by rw [bracket]; decide)
    have noColon : ':' ∉ text := fun listed => (valid _ listed).2 rfl
    rw [PageHost.text, if_neg unbracketed, beforeFirst_rooted rooted, beforeFirst_of_notMem noColon]
  | literal inside valid =>
    have noBracket : ']' ∉ '[' :: inside := by
      rw [List.mem_cons, not_or]
      exact ⟨by decide, fun listed => (valid _ listed).2.2 (by decide)⟩
    have open_ : PageHost.text (.literal inside valid) ++ page.portText =
        ('[' :: inside) ++ ']' :: page.portText := by
      rw [PageHost.text, List.cons_append, List.cons_append, List.append_assoc,
        List.singleton_append]
    have bracket : (('[' :: inside) ++ ']' :: page.portText).head? = some '[' := rfl
    rw [open_, if_pos bracket, beforeFirst_append noBracket]
    rfl

/-- The host that the address of a page names is that of the page. -/
theorem realHost_address : realHost table page.address = some page.hostText := by
  obtain ⟨kept, trimmed, rooted⟩ := page.trim_address
  have whole : trim page.address = page.scheme ++ ("://".toList ++
      (page.userText ++ (page.host.text ++ page.portText) ++ kept)) := by
    rw [trimmed, Page.front, List.append_assoc, List.append_assoc]
  have authority : authorityOf (trim page.address) =
      some (page.userText ++ (page.host.text ++ page.portText)) := by
    rw [authorityOf, whole, splitOnce_scheme page.scheme_letters, Option.bind_some,
      if_pos page.isScheme_scheme, page.takeWhile_authority rooted]
  have ascii : IsAscii page.host.text := fun _ listed => (page.host.mem_text listed).1
  rw [realHost, authority, Option.map_some, page.hostOf_authority, lowercase_ascii ascii]
  rfl

/-- No user information holds no mark that ends it. -/
theorem noBreak_none : ∀ info ∈ (none : Option (List Char)), ∀ char ∈ info,
    char ≠ '/' ∧ char ≠ '?' ∧ char ≠ '#' :=
  fun _ listed => by cases listed

/-- A page without its user information and its rest. -/
def Page.bare : Page :=
  { page with
    userinfo := none
    noBreak := noBreak_none
    rest := []
    rooted := .inl rfl }

/-- The origin of a page is its address without user information and rest. -/
theorem Page.origin_eq : page.origin = page.bare.address := by
  rw [Page.address, Page.bare, Page.userText, Option.map_none, Option.getD_none, List.append_nil,
    List.nil_append]
  rfl

/-- The vault reads the same host in the origin of a page. -/
theorem hostFromOrigin_origin :
    hostFromOrigin table page.origin = beforeFirst ':' page.hostText := by
  rw [page.origin_eq, hostFromOrigin_address]
  rfl

end Aipass.Browser
