import ServiceBroker.Json.Basic

/-!
# Schemas of messages

A `Schema α` says how values of a type are written: as a string, a list, a record of fields, a
record that shares its object with another one, one of two alternatives, and so on. Reading, writing
and comparing are functions on schemas, so a message type has to state its schema only.
-/
namespace ServiceBroker.Wire

/-- The words that stand for the values of a type. -/
structure Vocabulary (α : Type) where
  values : List α
  word : α → String
  /-- Every value is listed, and the first one with its word. -/
  find_word : ∀ a, values.find? (fun b => word b == word a) = some a

namespace Vocabulary

def words {α : Type} (v : Vocabulary α) : List String := v.values.map v.word

def ofWord? {α : Type} (v : Vocabulary α) (word : String) : Option α :=
  v.values.find? fun a => v.word a == word

end Vocabulary

/-- What stands for a field that is not written. -/
structure Default (α : Type) where
  value : α
  /-- Whether the field is left out when it has this value. -/
  silent : α → Bool
  eq_of_silent : ∀ a, silent a = true → a = value

namespace Default

/-- The field may be missing but is always written. -/
def spoken {α : Type} (a : α) : Default α := ⟨a, fun _ => false, by simp⟩

/-- The field is written unless its list is empty. -/
def emptyList {α : Type} : Default (List α) :=
  ⟨[], List.isEmpty, by simp⟩

/-- The field is written unless its map is empty. -/
def emptyObject : Default Object :=
  ⟨.empty, Object.isEmpty, fun o h => Object.ext (by simpa [Object.isEmpty, Object.empty] using h)⟩

end Default

mutual
inductive Schema : Type → Type 1 where
  | text : Schema String
  | flag : Schema Bool
  /-- Any document at all. -/
  | any : Schema Value
  /-- A free-form map. -/
  | dict : Schema Object
  | choice {α : Type} (v : Vocabulary α) : Schema α
  | list {α : Type} (item : Schema α) : Schema (List α)
  | record {α : Type} (name : String) (fields : Fields α) : Schema α
  /-- A record whose object holds the members of another value as well. -/
  | shared {α β : Type} (name : String) (fields : Fields α) (rest : Schema β) : Schema (α × β)
  /-- The first alternative that fits. -/
  | either {α β : Type} (name : String) (first : Schema α) (second : Schema β) : Schema (α ⊕ β)
  /-- A type that is written as another one. -/
  | via {α β : Type} (write : α → β) (read : β → α) (schema : Schema β) : Schema α

/-- The fields of a record in the order in which they are written. -/
inductive Fields : Type → Type 1 where
  | done : Fields Unit
  | required {α β : Type} (name : String) (schema : Schema α) (rest : Fields β) : Fields (α × β)
  /-- A field that may be missing or null. -/
  | optional {α β : Type} (name : String) (schema : Schema α) (rest : Fields β) :
      Fields (Option α × β)
  | defaulted {α β : Type} (name : String) (schema : Schema α) (default : Default α)
      (rest : Fields β) : Fields (α × β)
end

namespace Fields

def names {α : Type} : Fields α → List String
  | .done => []
  | .required name _ rest => name :: rest.names
  | .optional name _ rest => name :: rest.names
  | .defaulted name _ _ rest => name :: rest.names

def size {α : Type} (fields : Fields α) : Nat := fields.names.length

/-! The kinds of field that messages have. -/

def label {β : Type} (name : String) (rest : Fields β) : Fields (String × β) :=
  .defaulted name .text (.spoken "") rest

def switch {β : Type} (name : String) (default : Bool) (rest : Fields β) : Fields (Bool × β) :=
  .defaulted name .flag (.spoken default) rest

def freeForm {β : Type} (name : String) (rest : Fields β) : Fields (Object × β) :=
  .defaulted name .dict .emptyObject rest

def items {α β : Type} (name : String) (item : Schema α) (rest : Fields β) : Fields (List α × β) :=
  .defaulted name (.list item) .emptyList rest

end Fields
end ServiceBroker.Wire
