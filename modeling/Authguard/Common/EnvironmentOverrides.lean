import Authguard.Library.Text
import Authguard.Library.Yaml

/-!
Overrides of the configuration from the environment: every variable under the
prefix names a path into the merged YAML and carries the value to be put there.
An error is its chain of contexts, the outermost first. Reading a value as YAML
is a parameter.
-/

namespace Authguard

open Text Yaml

def ENV_PREFIX : String := "AUTHGUARD__"

inductive ConfigPathSegment
  | key (key : String)
  | index (index : Nat)
  deriving DecidableEq

/-! Paths. -/

/-- `str::parse::<usize>` after the sign, on a 64-bit target. -/
def parseDigits : Nat → List Char → Except String Nat
  | value, [] => .ok value
  | value, c :: digits =>
      if c.isDigit then
        let next := 10 * value + (c.toNat - '0'.toNat)
        if next < 2 ^ 64 then parseDigits next digits
        else .error "number too large to fit in target type"
      else
        .error "invalid digit found in string"

def parseUsize : List Char → Except String Nat
  | [] => .error "cannot parse integer from empty string"
  | ['+'] => .error "invalid digit found in string"
  | '+' :: digits => parseDigits 0 digits
  | digits => parseDigits 0 digits

/-- `path.split("__")`. -/
def splitUnderscores : List Char → List (List Char)
  | [] => [[]]
  | '_' :: '_' :: rest => [] :: splitUnderscores rest
  | c :: rest =>
      match splitUnderscores rest with
      | [] => [[c]]
      | piece :: pieces => (c :: piece) :: pieces

def parseIndex (segment digits : List Char) : Except (List String) ConfigPathSegment :=
  match parseUsize digits with
  | .ok index => .ok (.index index)
  | .error reason =>
      .error ["invalid array index in `" ++ String.ofList segment ++ "`", reason]

/-- The bracketed indices a segment ends in. -/
def parseIndices (segment : List Char) :
    List Char → Except (List String) (List ConfigPathSegment)
  | [] => .ok []
  | c :: inside =>
      if c = '[' then
        if ']' ∈ inside then do
          let index ← parseIndex segment (inside.takeWhile (· ≠ ']'))
          let rest ← parseIndices segment (inside.dropWhile (· ≠ ']')).tail
          .ok (index :: rest)
        else
          .error ["unclosed array index in `" ++ String.ofList segment ++ "`"]
      else
        .error ["invalid array path segment `" ++ String.ofList segment ++ "`"]
termination_by remaining => remaining.length
decreasing_by
  have hle := (List.dropWhile_sublist (· ≠ ']') (l := inside)).length_le
  simp only [List.length_tail, List.length_cons]
  omega

def parseSegment (segment : List Char) : Except (List String) (List ConfigPathSegment) :=
  if "INDEX_".toList.isPrefixOf segment then do
    let index ← parseIndex segment (segment.drop "INDEX_".toList.length)
    .ok [index]
  else if segment.head? = some '[' then
    parseIndices segment segment
  else do
    let indices ← parseIndices segment (segment.dropWhile (· ≠ '['))
    .ok (.key (String.ofList (segment.takeWhile (· ≠ '['))) :: indices)

def parseEnvironmentPath (path : String) : Except (List String) (List ConfigPathSegment) := do
  let parsed ← ((splitUnderscores path.toList).filter (· ≠ [])).mapM parseSegment
  if parsed.flatten = [] then .error ["configuration path is empty"] else .ok parsed.flatten

/-! Setting a value. -/

/-- `char::is_ascii_alphanumeric`, and lower case of what is left. -/
def normalizedPropertyName (value : String) : String :=
  String.ofList ((value.toList.filter Char.isAlphanum).map Char.toLower)

/-- The property a key is read for, where it is text. -/
def propertyOf (key : Yaml) : Option String := key.asStr.map normalizedPropertyName

def findKey (property : String) (entries : List (Yaml × Yaml)) : Option Yaml :=
  (entries.map Prod.fst).find? fun key => propertyOf key = some property

/-- The key an override goes under: the first one of its property, or else its own spelling. -/
def keyFor (segment : String) (entries : List (Yaml × Yaml)) : Yaml :=
  (findKey (normalizedPropertyName segment) entries).getD (.string (toAsciiLowercase segment))

/-- Nothing here fails, so there is no error to report. -/
def setYamlPath (current : Yaml) (path : List ConfigPathSegment) (value : Yaml) : Yaml :=
  match path with
  | [] => value
  | .index index :: remaining =>
      let current := if current.isSequence then current else .sequence []
      let items := current.asSequence.getD []
      let items := items ++ List.replicate (index + 1 - items.length) .null
      current.retag
        (.sequence (items.set index (setYamlPath (items[index]?.getD .null) remaining value)))
  | .key segment :: remaining =>
      let current := if current.isMapping then current else .mapping []
      let entries := current.asMapping.getD []
      let key := keyFor segment entries
      if remaining.isEmpty then
        current.retag (.mapping (insertEntry key value entries))
      else
        let child := (getEntry key entries).getD .null
        current.retag (.mapping (insertEntry key (setYamlPath child remaining value) entries))

/-! The entries of the environment. -/

section Entries

-- `serde_yaml::from_str`
variable (parseYaml : String → Option Yaml)

def overrideValue (rawValue : String) : Yaml := (parseYaml rawValue).getD (.string rawValue)

def isOverride (name : String) : Bool := ENV_PREFIX.toList.isPrefixOf name.toList

def overridePath (name : String) : Except (List String) (List ConfigPathSegment) :=
  parseEnvironmentPath (String.ofList (name.toList.drop ENV_PREFIX.toList.length))

def applyEntry (root : Yaml) (entry : String × String) : Except (List String) Yaml :=
  match overridePath entry.1 with
  | .ok path => .ok (setYamlPath root path (overrideValue parseYaml entry.2))
  | .error reason => .error (("parse environment override " ++ entry.1) :: reason)

def applyEnvironmentEntries (root : Yaml) (entries : List (String × String)) :
    Except (List String) Yaml :=
  (entries.filter fun entry => isOverride entry.1).foldlM (applyEntry parseYaml) root

end Entries

end Authguard
