import ServiceBroker.Json.Printer
import ServiceBroker.Wire.Decode
import ServiceBroker.Wire.Encode

/-!
# Messages

A type with a written form. It is read from a text or from a tree, and written as either.
-/
namespace ServiceBroker
open Wire

class Message (α : Type) where
  schema : Schema α

namespace Message

variable {α : Type} [Message α]

/-- Reads a message from a whole text. -/
def ofText (text : String) : Except DecodeError α := do
  let (d, complete) := Json.Document.ofText text
  let a ← schema.decode (.text 127) d
  if complete then return a else throw (.text .malformed)

/-- Reads a message from what a tree denotes. -/
def ofJson (j : Json) : Except DecodeError α :=
  schema.decode .value (.ofJson j.canonical)

/-- The tree of a message, with its members sorted and none of them repeated. -/
def toJson (a : α) : Json := (schema.encode a).canonical

/-- The text of a message, with its members in the order of the fields. -/
def toText (a : α) : String := (schema.encode a).text

def same (a b : α) : Bool := schema.same a b

end Message
end ServiceBroker
