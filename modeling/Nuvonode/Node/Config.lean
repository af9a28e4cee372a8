/-
  Node/Config.lean --- the configuration file of a provider node.

  From `provider-node/internal/config/config.go`: `Write` prints a configuration with
  Go's `%q`, `%t` and `%d`, and `Load` reads it line by line.  A Go string is the list
  of what `range` finds in it: runes, and bytes that belong to none.  Everything that
  `Write` prints is valid UTF-8, so a file is a list of characters.
-/
import Nuvonode.Foundation.Scanning
import Nuvonode.Foundation.Text

set_option autoImplicit false

namespace Nuvonode.Node

open Nuvonode.Foundation

/-! ## Quoting -/

/-- What `range` finds in a Go string. -/
inductive Piece where
  | rune (c : Char)
  | byte (b : UInt8)
  deriving DecidableEq

abbrev GoString : Type := List Piece

/-- A text as a Go string. -/
def goString (text : List Char) : GoString := text.map .rune

/-- The Unicode tables of Go's `strconv`. -/
structure Unicode where
  /-- `strconv.IsPrint`. -/
  isPrint : Char → Bool
  /-- Of the ASCII characters those from the space to the tilde are printable. -/
  isPrint_ascii : ∀ c : Char, c.toNat < 0x80 → isPrint c = (' ' ≤ c && c ≤ '~')

/-- A hexadecimal digit in lower case. -/
def lowerHex (n : Nat) : Char := Nat.digitChar (n % 16)

/-- The last digits of a number in hexadecimal. -/
def hexDigits : Nat → Nat → List Char
  | 0, _ => []
  | count + 1, n => hexDigits count (n / 16) ++ [lowerHex n]

section Quote

variable (U : Unicode)

/-- `appendEscapedRune`, in quotation marks. -/
def escapeRune (c : Char) : List Char :=
  if c = '"' ∨ c = '\\' then ['\\', c]
  else if U.isPrint c then [c]
  else if c = '\x07' then ['\\', 'a']
  else if c = '\x08' then ['\\', 'b']
  else if c = '\x0c' then ['\\', 'f']
  else if c = '\n' then ['\\', 'n']
  else if c = '\r' then ['\\', 'r']
  else if c = '\t' then ['\\', 't']
  else if c = '\x0b' then ['\\', 'v']
  else if c < ' ' ∨ c = '\x7f' then '\\' :: 'x' :: hexDigits 2 c.toNat
  else if c.toNat < 0x10000 then '\\' :: 'u' :: hexDigits 4 c.toNat
  else '\\' :: 'U' :: hexDigits 8 c.toNat

def escape : Piece → List Char
  | .rune c => escapeRune U c
  | .byte b => '\\' :: 'x' :: hexDigits 2 b.toNat

/-- Go's `%q`. -/
def quote (text : GoString) : List Char := '"' :: text.flatMap (escape U) ++ ['"']

end Quote

/-! ## The configuration -/

structure Config where
  serverURL : GoString
  providerToken : GoString
  providerName : GoString
  instanceKey : GoString
  ollamaURL : GoString
  allowAutoModelPull : Bool
  maxConcurrentJobs : Int64
  heartbeatIntervalSeconds : Int64
  logLevel : GoString
  allowedModelSlugs : List GoString
  deriving DecidableEq

/-- `Default`. -/
def defaultConfig : Config where
  serverURL := goString "http://localhost:18080".toList
  providerToken := []
  providerName := []
  instanceKey := []
  ollamaURL := goString "http://localhost:11434".toList
  allowAutoModelPull := false
  maxConcurrentJobs := 1
  heartbeatIntervalSeconds := 15
  logLevel := goString "info".toList
  allowedModelSlugs := []

/-! ## `Write` -/

/-- What `token(12)` draws: sixteen characters of the URL-safe alphabet of base64. -/
structure Token where
  chars : List Char
  length : chars.length = 16
  alphabet : ∀ c ∈ chars, c.isAlphanum ∨ c = '-' ∨ c = '_'

/-- The configuration that `Write` prints: a missing instance key is drawn. -/
def Config.withKey (token : Token) (cfg : Config) : Config :=
  if cfg.instanceKey = [] then
    { cfg with instanceKey := goString ("inst_".toList ++ token.chars) }
  else cfg

section Write

variable (U : Unicode)

/-- A line of `Write` for a key. -/
def entryLine (key : String) (value : List Char) : List Char := key.toList ++ ':' :: ' ' :: value

/-- A line of `Write` for a slug. -/
def slugLine (slug : GoString) : List Char := ' ' :: ' ' :: '-' :: ' ' :: quote U slug

/-- The lines that `Write` prints. -/
def configLines (cfg : Config) : List (List Char) :=
  [ entryLine "server_url" (quote U cfg.serverURL),
    entryLine "provider_token" (quote U cfg.providerToken),
    entryLine "provider_name" (quote U cfg.providerName),
    entryLine "instance_key" (quote U cfg.instanceKey),
    entryLine "ollama_url" (quote U cfg.ollamaURL),
    entryLine "allow_auto_model_pull" (formatBool cfg.allowAutoModelPull),
    entryLine "max_concurrent_jobs" (formatInt cfg.maxConcurrentJobs.toInt),
    entryLine "heartbeat_interval_seconds" (formatInt cfg.heartbeatIntervalSeconds.toInt),
    entryLine "log_level" (quote U cfg.logLevel),
    "allowed_model_slugs:".toList ] ++ cfg.allowedModelSlugs.map (slugLine U)

/-- `Write`: the content of the file. -/
def write (token : Token) (cfg : Config) : List Char :=
  (configLines U (cfg.withKey token)).flatMap (· ++ ['\n'])

end Write

/-! ## `Load` -/

inductive LoadErr where
  | tokenTooLong
  deriving DecidableEq

/-- The bytes of a text in UTF-8. -/
def byteLength (text : List Char) : Nat := (text.map Char.utf8Size).sum

/-- Whether a line does not fit the buffer of a `bufio.Scanner`, with its newline. -/
def tooLong (line : List Char) : Bool := 65536 ≤ byteLength line

/-- `bufio.ScanLines` drops a carriage return. -/
def dropCR (line : List Char) : List Char :=
  if line.getLast? = some '\r' then line.dropLast else line

/-- `strings.Trim` with the two quotation marks. -/
def trimQuotes (text : List Char) : List Char := trim (fun c => c == '"' || c == '\'') text

/-- What `Load` does with a key and its value. -/
def Config.set (cfg : Config) (key : String) (value : List Char) : Config :=
  match key with
  | "server_url" => { cfg with serverURL := goString value }
  | "provider_token" => { cfg with providerToken := goString value }
  | "provider_name" => { cfg with providerName := goString value }
  | "instance_key" => { cfg with instanceKey := goString value }
  | "ollama_url" => { cfg with ollamaURL := goString value }
  | "allow_auto_model_pull" => { cfg with allowAutoModelPull := parseBool value }
  | "max_concurrent_jobs" => { cfg with maxConcurrentJobs := atoi value }
  | "heartbeat_interval_seconds" => { cfg with heartbeatIntervalSeconds := atoi value }
  | "log_level" => { cfg with logLevel := goString value }
  | _ => cfg

/-- One turn of the loop of `Load`; the flag is `inAllowed`. -/
def loadLine (state : Config × Bool) (text : List Char) : Config × Bool :=
  let line := trim isSpace text
  if line = [] ∨ line.head? = some '#' then state
  else if state.2 ∧ line.head? = some '-' then
    let slug := goString (trimQuotes (trim isSpace line.tail))
    ({ state.1 with allowedModelSlugs := state.1.allowedModelSlugs ++ [slug] }, state.2)
  else match cut ':' line with
    | none => (state.1, false)
    | some (key, value) =>
        let key := String.ofList (trim isSpace key)
        if key = "allowed_model_slugs" then (state.1, true)
        else (state.1.set key (trimQuotes (trim isSpace value)), false)

/-- `Load`, of the content of a file. -/
def load (content : List Char) : Except LoadErr Config :=
  let lines := splitLines '\n' content
  if lines.any tooLong then .error .tokenTooLong
  else .ok ((lines.map dropCR).foldl loadLine (defaultConfig, false)).1

/-! ## The provider token -/

/-- `ValidProviderToken`: the prefix, and at least four parts between underscores. -/
def validProviderToken (token : GoString) : Bool :=
  (goString "pvn_provider_".toList).isPrefixOf token && 4 ≤ token.count (.rune '_') + 1

/-- The `Authorization` header that `serve` dials the server with. -/
def authorization (cfg : Config) : GoString := goString "Bearer ".toList ++ cfg.providerToken

end Nuvonode.Node
