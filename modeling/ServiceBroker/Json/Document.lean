import ServiceBroker.Json.Basic
import ServiceBroker.Json.Token

/-!
# Documents as they are written

A `Document` keeps what reading a value from left to right can stumble over: the members in their
order, tokens that cannot be taken in, and the place where the text goes wrong. Whether a fault is
met depends on what the reader makes of the value, so nothing is rejected here. A text that can be
read to its end gives a document without faults.
-/
namespace ServiceBroker.Json

/-- What comes after the last item of an array. -/
inductive ArrayEnd where
  | closed
  /-- Neither a comma nor the closing bracket. -/
  | fault (fault : Fault)
  /-- A comma that no item follows. -/
  | dangling (fault : Fault)
  deriving DecidableEq

/-- What comes after the last member of an object. -/
inductive ObjectEnd where
  | closed
  /-- Neither a comma nor the closing brace. -/
  | fault (fault : Fault)
  /-- No name where one is due, but this token or the end of the text. -/
  | nameless (found : Option Token)
  deriving DecidableEq

/-- The name of a member, or why it can only be skipped. -/
abbrev MemberName := Except Fault String

inductive Document where
  | null
  | bool (b : Bool)
  | num (n : Number)
  | str (s : String)
  | outOfRange
  | unpaired (fault : Fault)
  | broken (lead : Lead) (taken skipped : Fault)
  /-- No value begins here. -/
  | missing (fault : Fault)
  | arr (items : List Document) (ending : ArrayEnd)
  | obj (members : List (MemberName × Document)) (ending : ObjectEnd)

namespace Document

/-! ## Reading a text -/

/-- A container around the value that is being read. What came before is kept in reverse. -/
inductive Frame where
  | array (before : List Document)
  | object (before : List (MemberName × Document)) (name : MemberName)

/-- What the text has to go on with. -/
inductive Due where
  | value
  | firstItem
  | item (before : List Document)
  | firstName
  | name (before : List (MemberName × Document))
  | colon (before : List (MemberName × Document)) (name : MemberName)
  /-- A comma or the end of the innermost container, whose latest part this is. -/
  | more (latest : Document)

/-- The whole document when its innermost part is the last thing that could be read. -/
def abandon (d : Document) : List Frame → Document
  | [] => d
  | .array before :: stack => abandon (.arr (d :: before).reverse .closed) stack
  | .object before name :: stack => abandon (.obj ((name, d) :: before).reverse .closed) stack

/-- The document of a text that ends here. -/
def atEnd (due : Due) (stack : List Frame) : Document :=
  match due, stack with
  | .value, stack => abandon (.missing .truncated) stack
  | .firstItem, stack => abandon (.arr [] (.fault .truncated)) stack
  | .item before, stack => abandon (.arr before.reverse (.dangling .truncated)) stack
  | .firstName, stack => abandon (.obj [] (.nameless none)) stack
  | .name before, stack => abandon (.obj before.reverse (.nameless none)) stack
  | .colon before name, stack => abandon (.missing .truncated) (.object before name :: stack)
  | .more d, [] => d
  | .more d, .array before :: stack =>
    abandon (.arr (d :: before).reverse (.fault .truncated)) stack
  | .more d, .object before name :: stack =>
    abandon (.obj ((name, d) :: before).reverse (.fault .truncated)) stack

/-- A step of reading: the document as far as it can be read, or how to go on. -/
abbrev Step := Except Document (Due × List Frame)

def beginValue (stack : List Frame) (t : Token) : Step :=
  match t with
  | .objectStart => .ok (.firstName, stack)
  | .arrayStart => .ok (.firstItem, stack)
  | .null => .ok (.more .null, stack)
  | .bool b => .ok (.more (.bool b), stack)
  | .num n => .ok (.more (.num n), stack)
  | .str s => .ok (.more (.str s), stack)
  | .outOfRange => .ok (.more .outOfRange, stack)
  | .unpaired fault => .ok (.more (.unpaired fault), stack)
  | .broken lead taken skipped => .error (abandon (.broken lead taken skipped) stack)
  | .objectEnd | .arrayEnd | .comma | .colon | .stray =>
    .error (abandon (.missing .malformed) stack)

def beginMember (before : List (MemberName × Document)) (stack : List Frame) (t : Token) : Step :=
  match t with
  | .str s => .ok (.colon before (.ok s), stack)
  | .unpaired fault => .ok (.colon before (.error fault), stack)
  | t => .error (abandon (.obj before.reverse (.nameless (some t))) stack)

def step (due : Due) (stack : List Frame) (t : Token) : Step :=
  match due, stack, t with
  | .value, stack, t => beginValue stack t
  | .firstItem, stack, .arrayEnd => .ok (.more (.arr [] .closed), stack)
  | .firstItem, stack, t => beginValue (.array [] :: stack) t
  | .item before, stack, .arrayEnd =>
    .error (abandon (.arr before.reverse (.dangling .malformed)) stack)
  | .item before, stack, t => beginValue (.array before :: stack) t
  | .firstName, stack, .objectEnd => .ok (.more (.obj [] .closed), stack)
  | .firstName, stack, t => beginMember [] stack t
  | .name before, stack, t => beginMember before stack t
  | .colon before name, stack, .colon => .ok (.value, .object before name :: stack)
  | .colon before name, stack, _ =>
    .error (abandon (.missing .malformed) (.object before name :: stack))
  | .more d, .array before :: stack, .comma => .ok (.item (d :: before), stack)
  | .more d, .array before :: stack, .arrayEnd =>
    .ok (.more (.arr (d :: before).reverse .closed), stack)
  | .more d, .array before :: stack, _ =>
    .error (abandon (.arr (d :: before).reverse (.fault .malformed)) stack)
  | .more d, .object before name :: stack, .comma => .ok (.name ((name, d) :: before), stack)
  | .more d, .object before name :: stack, .objectEnd =>
    .ok (.more (.obj ((name, d) :: before).reverse .closed), stack)
  | .more d, .object before name :: stack, _ =>
    .error (abandon (.obj ((name, d) :: before).reverse (.fault .malformed)) stack)
  | .more d, [], _ => .error d

/-- Reads a document, and gives the tokens behind it as well. -/
def read (due : Due) (stack : List Frame) : List Token → Document × List Token
  | [] => (atEnd due stack, [])
  | t :: ts =>
    match due, stack with
    | .more d, [] => (d, t :: ts)
    | due, stack =>
      match step due stack t with
      | .ok (due, stack) => read due stack ts
      | .error d => (d, ts)

/-- The document that a text begins with, and whether the text ends with it. -/
def ofText (text : String) : Document × Bool :=
  let (d, rest) := read .value [] (Token.ofChars text.toList)
  (d, rest.isEmpty)

mutual
/-- A tree as a document without faults. -/
def ofJson : Json → Document
  | .null => .null
  | .bool b => .bool b
  | .num n => .num n
  | .str s => .str s
  | .arr items => .arr (ofItems items) .closed
  | .obj members => .obj (ofMembers members) .closed

def ofItems : List Json → List Document
  | [] => []
  | j :: js => ofJson j :: ofItems js

def ofMembers : List (String × Json) → List (MemberName × Document)
  | [] => []
  | (n, j) :: ms => (.ok n, ofJson j) :: ofMembers ms
end

end Document

/-! ## Taking a document in -/

namespace ArrayEnd

def check : ArrayEnd → Except Fault Unit
  | .closed => .ok ()
  | .fault f | .dangling f => .error f

end ArrayEnd

namespace ObjectEnd

def takeCheck : ObjectEnd → Except Fault Unit
  | .closed => .ok ()
  | .fault f => .error f
  | .nameless none => .error .truncated
  | .nameless (some (.broken .string taken _)) => .error taken
  | .nameless (some _) => .error .malformed

def skipCheck : ObjectEnd → Except Fault Unit
  | .closed => .ok ()
  | .fault f => .error f
  | .nameless none => .error .truncated
  | .nameless (some (.broken .string _ skipped)) => .error skipped
  | .nameless (some _) => .error .malformed

end ObjectEnd

/-- How many containers may still be entered, if there is a limit. -/
abbrev Room := Option Nat

namespace Room

/-- A text may nest this many containers. -/
def ofText : Room := some 127

def unlimited : Room := none

def enter : Room → Except Fault Room
  | none => .ok none
  | some 0 => .error .malformed
  | some (n + 1) => .ok (some n)

end Room

namespace Document

mutual
/-- The tree of a document whose every part is taken in. -/
def take (room : Room) : Document → Except Fault Json
  | .null => .ok .null
  | .bool b => .ok (.bool b)
  | .num n => .ok (.num n)
  | .str s => .ok (.str s)
  | .outOfRange => .error .malformed
  | .unpaired fault => .error fault
  | .broken _ taken _ => .error taken
  | .missing fault => .error fault
  | .arr items ending => do
    let room ← room.enter
    let js ← takeItems room items
    ending.check
    return .arr js
  | .obj members ending => do
    let room ← room.enter
    let ms ← takeMembers room members
    ending.takeCheck
    return .obj ms

def takeItems (room : Room) : List Document → Except Fault (List Json)
  | [] => .ok []
  | d :: ds => do
    let j ← take room d
    let js ← takeItems room ds
    return j :: js

def takeMembers (room : Room) :
    List (MemberName × Document) → Except Fault (List (String × Json))
  | [] => .ok []
  | (name, d) :: ms => do
    let n ← name
    let j ← take room d
    let js ← takeMembers room ms
    return (n, j) :: js
end

mutual
/-- Passes over a document without taking it in. -/
def skip : Document → Except Fault Unit
  | .null | .bool _ | .num _ | .str _ | .outOfRange | .unpaired _ => .ok ()
  | .broken _ _ skipped => .error skipped
  | .missing fault => .error fault
  | .arr items ending => do
    skipItems items
    ending.check
  | .obj members ending => do
    skipMembers members
    ending.skipCheck

def skipItems : List Document → Except Fault Unit
  | [] => .ok ()
  | d :: ds => do
    skip d
    skipItems ds

def skipMembers : List (MemberName × Document) → Except Fault Unit
  | [] => .ok ()
  | (_, d) :: ms => do
    skip d
    skipMembers ms
end

end Document

/-- Reads a whole text as a tree. -/
def parse (room : Room) (text : String) : Except Fault Json := do
  let (d, complete) := Document.ofText text
  let j ← d.take room
  if complete then return j else throw .malformed

end ServiceBroker.Json
