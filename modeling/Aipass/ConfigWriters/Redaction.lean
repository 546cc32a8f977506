import Aipass.Base.Json
import Aipass.Base.Text
import Aipass.Values
import Mathlib.Data.List.Infix
import Mathlib.Data.List.SplitOn

/-!
# What a preview shows of a configuration

A preview shows a configuration with its secrets redacted. A document that can be read is redacted
value by value below the keys that are sensitive. A script that exports variables is redacted line by
line: a line that assigns to a sensitive name keeps the name alone. Anything else is left to a
pattern. The readers of the formats, their printers and the pattern are parameters.
-/
namespace Aipass.ConfigWriters

open Text

/-- The parts of a name that make it sensitive. -/
def sensitiveParts : List String :=
  ["apikey", "apitoken", "aipasskey", "accesstoken", "refreshtoken", "idtoken", "authtoken",
    "bearertoken", "authorization", "secret", "password", "cookie"]

/-- A name in lower case without underscores and hyphens. -/
def plainName (key : List Char) : List Char :=
  (key.map Char.toLower).filter fun char => char ≠ '_' && char ≠ '-'

/-- `sensitive`. -/
def sensitive (key : List Char) : Bool :=
  let key := plainName key
  sensitiveParts.any (fun part => decide (part.toList <:+: key)) || "token".toList.isSuffixOf key ||
    ["auth", "key", "refs", "records"].any (fun name => name.toList = key)

/-- Whether a character is one of an identifier. -/
def isIdChar (char : Char) : Bool := char.isDigit || ('a' ≤ char && char ≤ 'f') || char = '-'

/-- The text after an identifier of 36 characters. -/
def stripId (text : List Char) : Option (List Char) :=
  if 36 ≤ text.length ∧ (text.take 36).all isIdChar then some (text.drop 36) else none

/-- A text is what one pattern for the end of a command accepts. -/
def commandEnds (rest : List Char) : Bool :=
  rest = " --reveal".toList || rest = " --field api_key --reveal".toList ||
    ((stripPrefix " --secret-id '".toList rest).bind stripId).any
      (· = "' --reveal".toList)

/-- `COMMAND`: the pattern of the command that a configuration calls for its key. -/
def isCommand (value : List Char) : Bool :=
  ((stripPrefix "aipass get ".toList value).bind stripId).any commandEnds

/-- `String::from_utf16`. -/
def fromUtf16 : List UInt16 → Option (List Char)
  | [] => some []
  | unit :: rest =>
    if unit < 0xD800 ∨ 0xDFFF < unit then
      (fromUtf16 rest).map (Char.ofNat unit.toNat :: ·)
    else if unit ≤ 0xDBFF then
      match rest with
      | low :: rest =>
        if 0xDC00 ≤ low ∧ low ≤ 0xDFFF then
          (fromUtf16 rest).map
            (Char.ofNat (0x10000 + (unit.toNat - 0xD800) * 0x400 + (low.toNat - 0xDC00)) :: ·)
        else none
      | [] => none
    else none

/-- The pairs of bytes of a text in UTF-16, in little-endian order. -/
def pairs : Bytes → List UInt16
  | low :: high :: rest => (low.toUInt16 + high.toUInt16 * 256) :: pairs rest
  | _ => []

/-- A TOML document. -/
inductive Toml
  | none
  | scalar (text : String)
  | array (items : List Toml)
  | inlineTable (fields : List (String × Toml))
  | table (fields : List (String × Toml))
  | tables (tables : List Toml)

/-- The readers and printers of the formats. -/
structure Readers where
  /-- `base64::engine::general_purpose::STANDARD.decode`. -/
  base64 : List Char → Option Bytes
  /-- `json5::from_str`. -/
  json5 : List Char → Option Value
  /-- `serde_json::to_string_pretty`. -/
  printJson : Value → Option (List Char)
  /-- `str::parse::<DocumentMut>`. -/
  toml : List Char → Option Toml
  /-- `DocumentMut::to_string`. -/
  printToml : Toml → List Char
  /-- `serde_yaml_ng::from_str`. -/
  yaml : List Char → Option Value
  /-- `serde_yaml_ng::to_string`. -/
  printYaml : Value → Option (List Char)
  /-- `SECRET.replace_all`. -/
  replaceSecrets : List Char → List Char

variable (readers : Readers)

/-- The script that a PowerShell command carries. -/
def encodedScript (value : List Char) : Option (List Char) := do
  let encoded ← stripPrefix
    "powershell.exe -NoProfile -NonInteractive -EncodedCommand ".toList value
  if (String.ofList encoded).utf8ByteSize > 2048 then Option.none
  let bytes ← readers.base64 encoded
  if bytes.length % 2 ≠ 0 then Option.none
  fromUtf16 (pairs bytes)

/-- `helper`: a value is exactly a generated command that prints a key. -/
def helper (key value : String) : Bool :=
  key = "apiKeyHelper" && (isCommand value.toList ||
    ((encodedScript readers value.toList).bind fun script =>
      (stripPrefix "$ErrorActionPreference = 'Stop'; & ".toList script).bind
        (stripSuffix "; exit $LASTEXITCODE".toList)).any isCommand)

/-- What stands for a secret. -/
def redacted : Value := .string "[redacted]"

/-- A value is hidden below its key. -/
def hidden (key : String) (value : Value) : Bool :=
  sensitive key.toList && !value.asStr.any (helper readers key)

mutual

/-- `json`. -/
def redactJson : Value → Value
  | .array items => .array (redactItems items)
  | .object fields => .object (redactFields fields)
  | value => value

/-- `json` on the items of an array. -/
def redactItems : List Value → List Value
  | [] => []
  | item :: rest => redactJson item :: redactItems rest

/-- `json` on the fields of an object. -/
def redactFields : List (String × Value) → List (String × Value)
  | [] => []
  | (key, value) :: rest =>
    (key, if hidden readers key value then redacted else redactJson value) :: redactFields rest

end

mutual

/-- `redact_item` and `redact_value`. -/
def redactToml : Toml → Toml
  | .none => .none
  | .scalar text => .scalar text
  | .array items => .array (redactTomls items)
  | .inlineTable fields => .inlineTable (redactEntries fields)
  | .table fields => .table (redactEntries fields)
  | .tables tables => .tables (redactTomls tables)

/-- The values of an array and the tables of an array of tables. -/
def redactTomls : List Toml → List Toml
  | [] => []
  | item :: rest => redactToml item :: redactTomls rest

/-- `table`, and the same for an inline table. -/
def redactEntries : List (String × Toml) → List (String × Toml)
  | [] => []
  | (key, item) :: rest =>
    (key, if sensitive key.toList then .scalar "[redacted]" else redactToml item) ::
      redactEntries rest

end

/-- A value is an object or an array. -/
def isContainer : Value → Bool
  | .array _ | .object _ => true
  | _ => false

/-- The name that the left side of a line assigns to. -/
def assignedName (key : List Char) : List Char :=
  trim (trimStartMatches "$env:".toList (trimStartMatches "export ".toList (trim key)))

/-- One line of a script that exports variables. -/
def redactLine (line : List Char) : List Char :=
  match splitOnce ['='] line with
  | some (key, _) => if sensitive (assignedName key) then key ++ "= '[redacted]'".toList else line
  | none => line

/-- A line exports a variable. -/
def exports (line : List Char) : Bool :=
  "export ".toList.isPrefixOf (trimStart line) || "$env:".toList.isPrefixOf (trimStart line)

/-- The end of `redact_config`, for a text that is no document. -/
def redactScript (content : List Char) : List Char :=
  if (lines content).any exports then
    List.intercalate ['\n'] ((lines content).map redactLine)
  else readers.replaceSecrets content

/-- `redact_config`. -/
def redactConfig (content : List Char) : List Char :=
  match readers.json5 content with
  | some value => (readers.printJson (redactJson readers value)).getD "[redacted]".toList
  | none =>
    match readers.toml content with
    | some doc => readers.printToml (redactToml doc)
    | none =>
      match (readers.yaml content).filter isContainer with
      | some value => (readers.printYaml (redactJson readers value)).getD "[redacted]".toList
      | none => redactScript readers content

/-- `quote`. -/
def quote (windows : Bool) (value : List Char) : List Char :=
  '\'' :: replaceChar '\'' (if windows then "''" else "'\\''").toList value ++ ['\'']

/-- A name that `assignment` accepts. -/
def isName (name : List Char) : Bool := name.all fun char => char.isAlphanum || char = '_'

/-- The text of an assignment up to the value. -/
def assigning (windows : Bool) (name : List Char) : List Char :=
  if windows then "$env:".toList ++ name ++ " = ".toList else "export ".toList ++ name ++ ['=']

/-- The end of a line of a script. -/
def lineEnd (windows : Bool) : List Char := if windows then ['\r', '\n'] else ['\n']

/-- `env_literal`; it is called for names that `assignment` accepts. -/
def envLiteral (windows : Bool) (name value : List Char) : List Char :=
  assigning windows name ++ quote windows value ++ lineEnd windows

/-- The first line of a script, without its end. -/
def banner (windows : Bool) : List Char :=
  (if windows then ['\ufeff'] else []) ++
    "# Generated by AIPass. Load in the shell that starts the Agent.".toList

/-- `shell_env` for a key. -/
def shellEnv (windows : Bool) (name key : List Char) : List Char :=
  banner windows ++ '\n' :: envLiteral windows name key

end Aipass.ConfigWriters
