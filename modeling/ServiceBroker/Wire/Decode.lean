import ServiceBroker.Wire.Schema
import ServiceBroker.Wire.Mismatch

/-!
# Reading messages

`decode` reads a message from a document by its schema. The members of an object are visited in the
order in which they are written, and the first problem met is the answer. A record without a shared
object may also be written as an array of its fields.

A text and a value are read alike but for a few answers to documents of the wrong shape, and for the
nesting that a text may have.
-/
namespace ServiceBroker.Wire
open Json

/-- What a document was read from. -/
inductive Medium where
  /-- A text, of which this many more containers may be entered. -/
  | text (room : Nat)
  | value

namespace Medium

def room : Medium → Room
  | .text n => some n
  | .value => none

def enter : Medium → Except DecodeError Medium
  | .text 0 => .error (.text .malformed)
  | .text (n + 1) => .ok (.text n)
  | .value => .ok .value

end Medium

/-! ## Words -/

def Vocabulary.named {α : Type} (v : Vocabulary α) (word : String) : Except DecodeError α :=
  match v.ofWord? word with
  | some a => .ok a
  | none => .error (.shape (.unknownWord word v.words))

/-- A word that is written as an object has no content. -/
def nothing : Document → Except DecodeError Unit
  | .null => .ok ()
  | d => .error (unexpected d .nothing)

/-- Behind the content of a word only the closing brace may follow. -/
def nothingMore : List (MemberName × Document) → ObjectEnd → Except DecodeError Unit
  | [], .closed => .ok ()
  | [], .fault fault => .error (.text fault)
  | _, _ => .error (.text .malformed)

def Vocabulary.decodeText {α : Type} (v : Vocabulary α) (m : Medium) :
    Document → Except DecodeError α
  | .str s => v.named s
  | .unpaired fault => .error (.text fault)
  | .broken .string taken _ => .error (.text taken)
  | .missing fault => .error (.text fault)
  | .obj [] ending => do
    let _ ← m.enter
    ofReading ending.takeCheck
    throw (.text .malformed)
  | .obj ((name, content) :: more) ending => do
    let _ ← m.enter
    let word ← ofReading name
    let a ← v.named word
    nothing content
    nothingMore more ending
    return a
  | _ => .error (.text .malformed)

def Vocabulary.decodeValue {α : Type} (v : Vocabulary α) : Document → Except DecodeError α
  | .str s => v.named s
  | .obj [(name, content)] _ => do
    let word ← ofReading name
    let a ← v.named word
    nothing content
    return a
  | .obj _ _ => .error (.shape .severalWords)
  | d => .error (unexpected d .word)

def Vocabulary.decode {α : Type} (v : Vocabulary α) :
    Medium → Document → Except DecodeError α
  | .text n, d => v.decodeText (.text n) d
  | .value, d => v.decodeValue d

/-! ## Records -/

/-- Goes through the members of an object. A known member is checked and must not repeat; of the
other ones only the document is looked at. -/
def visit (known : String → Option (Document → Except DecodeError Unit))
    (other : Document → Except Fault Unit) :
    List String → List (MemberName × Document) → Except DecodeError Unit
  | _, [] => .ok ()
  | seen, (name, d) :: rest => do
    let n ← ofReading name
    match known n with
    | some check =>
      if seen.contains n then throw (.shape (.repeatedField n))
      check d
      visit known other (n :: seen) rest
    | none =>
      ofReading (other d)
      visit known other seen rest

/-- The document of the first member with a name. -/
def memberNamed? (name : String) : List (MemberName × Document) → Option Document
  | [] => none
  | (.ok n, d) :: rest => if n = name then some d else memberNamed? name rest
  | (.error _, _) :: rest => memberNamed? name rest

/-- The members that a record does not know. -/
def others (names : List String) (members : List (MemberName × Document)) :
    List (MemberName × Document) :=
  members.filter fun m =>
    match m.1 with
    | .ok n => !names.contains n
    | .error _ => true

/-- A field that may be null. -/
def nullable {α : Type} (decode : Document → Except DecodeError α) :
    Document → Except DecodeError (Option α)
  | .null => .ok none
  | .broken .null taken _ => .error (.text taken)
  | d => some <$> decode d

/-- What follows the fields of a record that is written as an array. -/
def noMoreItems (m : Medium) (length : Nat) (more : List Document) (ending : ArrayEnd) :
    Except DecodeError Unit :=
  match m, more, ending with
  | .value, [], _ => .ok ()
  | .value, _ :: _, _ => .error (.shape (.tooLong length))
  | .text _, [], .closed => .ok ()
  | .text _, [], .fault fault => .error (.text fault)
  | .text _, _, _ => .error (.text .malformed)

mutual
def Schema.decode {α : Type} : Schema α → Medium → Document → Except DecodeError α
  | .text, _, d =>
    match d with
    | .str s => .ok s
    | d => .error (unexpected d .text)
  | .flag, _, d =>
    match d with
    | .bool b => .ok b
    | d => .error (unexpected d .flag)
  | .any, m, d => do
    let j ← ofReading (d.take m.room)
    return Value.ofJson j
  | .dict, m, d =>
    match d with
    | .obj members ending => do
      let m ← m.enter
      let js ← ofReading (Document.takeMembers m.room members)
      ofReading ending.takeCheck
      return Object.ofMembers js
    | d => .error (unexpected d .map)
  | .choice v, m, d => v.decode m d
  | .list item, m, d =>
    match d with
    | .arr items ending => do
      let m ← m.enter
      let as ← items.mapM (item.decode m)
      ofReading ending.check
      return as
    | d => .error (unexpected d .sequence)
  | .record name fields, m, d =>
    match d with
    | .obj members ending => do
      let m ← m.enter
      visit (fields.check? m) Document.skip [] members
      ofReading ending.takeCheck
      fields.build m members
    | .arr items ending => do
      let m ← m.enter
      fields.positional m name fields.size items.length 0 items ending
    | d => .error (unexpected d (.record name))
  | .shared name fields rest, m, d =>
    match d with
    | .obj members ending => do
      let m ← m.enter
      visit (fields.check? m) (fun d => (fun _ => ()) <$> d.take m.room) [] members
      ofReading ending.takeCheck
      let a ← fields.build m members
      let js ← ofReading (Document.takeMembers m.room (others fields.names members))
      let b ← rest.decode .value (.ofJson (.obj js))
      return (a, b)
    | d => .error (unexpected d (.record name))
  | .either name first second, m, d => do
    let j ← ofReading (d.take m.room)
    match first.decode .value (.ofJson j) with
    | .ok a => return .inl a
    | .error _ =>
      match second.decode .value (.ofJson j) with
      | .ok b => return .inr b
      | .error _ => throw (.shape (.noAlternative name))
  | .via _ read schema, m, d => read <$> schema.decode m d

/-- How the member with a name is checked, if the record has a field of that name. -/
def Fields.check? {α : Type} :
    Fields α → Medium → String → Option (Document → Except DecodeError Unit)
  | .done, _, _ => none
  | .required name schema rest, m, n =>
    if n = name then some fun d => (fun _ => ()) <$> schema.decode m d else rest.check? m n
  | .optional name schema rest, m, n =>
    if n = name then some fun d => (fun _ => ()) <$> nullable (schema.decode m) d
    else rest.check? m n
  | .defaulted name schema _ rest, m, n =>
    if n = name then some fun d => (fun _ => ()) <$> schema.decode m d else rest.check? m n

/-- Takes the fields from the members of an object. -/
def Fields.build {α : Type} :
    Fields α → Medium → List (MemberName × Document) → Except DecodeError α
  | .done, _, _ => .ok ()
  | .required name schema rest, m, members => do
    let a ← match memberNamed? name members with
      | some d => schema.decode m d
      | none => .error (.shape (.missingField name))
    let b ← rest.build m members
    return (a, b)
  | .optional name schema rest, m, members => do
    let a ← match memberNamed? name members with
      | some d => nullable (schema.decode m) d
      | none => .ok none
    let b ← rest.build m members
    return (a, b)
  | .defaulted name schema default rest, m, members => do
    let a ← match memberNamed? name members with
      | some d => schema.decode m d
      | none => .ok default.value
    let b ← rest.build m members
    return (a, b)

/-- Takes the fields from the items of an array of a given length. Fields at the end may be missing
unless they are required. -/
def Fields.positional {α : Type} :
    Fields α → Medium → String → Nat → Nat → Nat → List Document → ArrayEnd →
      Except DecodeError α
  | .done, m, _, _, length, _, items, ending => noMoreItems m length items ending
  | .required _ schema rest, m, record, size, length, index, items, ending =>
    match items with
    | d :: ds => do
      let a ← schema.decode m d
      let b ← rest.positional m record size length (index + 1) ds ending
      return (a, b)
    | [] => do
      ofReading ending.check
      throw (.shape (.tooShort index record size))
  | .optional _ schema rest, m, record, size, length, index, items, ending =>
    match items with
    | d :: ds => do
      let a ← nullable (schema.decode m) d
      let b ← rest.positional m record size length (index + 1) ds ending
      return (a, b)
    | [] => do
      ofReading ending.check
      let b ← rest.positional m record size length (index + 1) [] ending
      return (none, b)
  | .defaulted _ schema default rest, m, record, size, length, index, items, ending =>
    match items with
    | d :: ds => do
      let a ← schema.decode m d
      let b ← rest.positional m record size length (index + 1) ds ending
      return (a, b)
    | [] => do
      ofReading ending.check
      let b ← rest.positional m record size length (index + 1) [] ending
      return (default.value, b)
end

end ServiceBroker.Wire
