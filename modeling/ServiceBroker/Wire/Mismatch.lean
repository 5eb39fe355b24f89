import ServiceBroker.Json.Document
import ServiceBroker.Text.Quoted

/-!
# Why a document is no message

A text may break off or be malformed; a document that can be read may still have the wrong shape. A
`Mismatch` says what was found and what was expected, and `Mismatch.message` puts it into words.
-/
namespace ServiceBroker.Wire
open Json

/-- What stands where something else is expected. -/
inductive Found where
  | null
  | bool (b : Bool)
  | num (n : Number)
  | str (s : String)
  | sequence
  | map

inductive Expected where
  | text
  | flag
  | map
  | sequence
  /-- A word of a vocabulary, bare or as the only member of an object. -/
  | word
  /-- The content of a word that is written as an object. -/
  | nothing
  | record (name : String)

inductive Mismatch where
  | type (found : Found) (expected : Expected)
  /-- An object with more or less than one member in place of a word. -/
  | severalWords
  | unknownWord (word : String) (vocabulary : List String)
  | missingField (name : String)
  | repeatedField (name : String)
  | tooShort (length : Nat) (record : String) (size : Nat)
  | tooLong (length : Nat)
  | noAlternative (name : String)

namespace Found

def message : Found → String
  | .null => "null"
  | .bool b => "boolean `" ++ (if b then "true" else "false") ++ "`"
  | .num (.int n) => "integer `" ++ String.ofList (Number.int n).chars ++ "`"
  | .num (.double x) => "floating point `" ++ String.ofList (Number.double x).chars ++ "`"
  | .str s => "string " ++ Text.quoted s
  | .sequence => "sequence"
  | .map => "map"

end Found

namespace Expected

def message : Expected → String
  | .text => "a string"
  | .flag => "a boolean"
  | .map => "a map"
  | .sequence => "a sequence"
  | .word => "string or map"
  | .nothing => "unit"
  | .record name => "struct " ++ name

end Expected

namespace Mismatch

private def quotedName (name : String) : String := "`" ++ name ++ "`"

def message : Mismatch → String
  | .type found expected => "invalid type: " ++ found.message ++ ", expected " ++ expected.message
  | .severalWords => "invalid value: map, expected map with a single key"
  | .unknownWord word vocabulary =>
    "unknown variant " ++ quotedName word ++ ", expected one of " ++
      ", ".intercalate (vocabulary.map quotedName)
  | .missingField name => "missing field " ++ quotedName name
  | .repeatedField name => "duplicate field " ++ quotedName name
  | .tooShort length record size =>
    "invalid length " ++ toString length ++ ", expected struct " ++ record ++ " with " ++
      toString size ++ (if size = 1 then " element" else " elements")
  | .tooLong length => "invalid length " ++ toString length ++ ", expected fewer elements in array"
  | .noAlternative name => "data did not match any variant of untagged enum " ++ name

end Mismatch

/-- Why decoding fails. -/
inductive DecodeError where
  | text (fault : Fault)
  | shape (mismatch : Mismatch)

/-- A result of reading text as a result of decoding. -/
def ofReading {α : Type} : Except Fault α → Except DecodeError α
  | .ok a => .ok a
  | .error fault => .error (.text fault)

/-- The error of finding a document where something else is expected. Of a container only the kind
is looked at. -/
def unexpected (d : Document) (expected : Expected) : DecodeError :=
  match d with
  | .null => .shape (.type .null expected)
  | .bool b => .shape (.type (.bool b) expected)
  | .num n => .shape (.type (.num n) expected)
  | .str s => .shape (.type (.str s) expected)
  | .arr _ _ => .shape (.type .sequence expected)
  | .obj _ _ => .shape (.type .map expected)
  | .outOfRange => .text .malformed
  | .unpaired fault => .text fault
  | .broken _ taken _ => .text taken
  | .missing fault => .text fault

end ServiceBroker.Wire
