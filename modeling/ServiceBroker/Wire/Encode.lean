import ServiceBroker.Wire.Schema

/-!
# Writing messages

`encode` gives the document that is written, with the fields in their order. A record that shares
its object writes the members of the other value behind its own, even when a name repeats.
-/
namespace ServiceBroker.Wire

/-- The members of an object. -/
def membersOf : Json → List (String × Json)
  | .obj members => members
  | _ => []

mutual
def Schema.encode {α : Type} : Schema α → α → Json
  | .text, s => .str s
  | .flag, b => .bool b
  | .any, v => v.json
  | .dict, o => o.toJson
  | .choice v, a => .str (v.word a)
  | .list item, as => .arr (as.map item.encode)
  | .record _ fields, a => .obj (fields.encode a)
  | .shared _ fields rest, (a, b) => .obj (fields.encode a ++ membersOf (rest.encode b))
  | .either _ first _, .inl a => first.encode a
  | .either _ _ second, .inr b => second.encode b
  | .via write _ schema, a => schema.encode (write a)

def Fields.encode {α : Type} : Fields α → α → List (String × Json)
  | .done, _ => []
  | .required name schema rest, (a, b) => (name, schema.encode a) :: rest.encode b
  | .optional _ _ rest, (none, b) => rest.encode b
  | .optional name schema rest, (some a, b) => (name, schema.encode a) :: rest.encode b
  | .defaulted name schema default rest, (a, b) =>
    if default.silent a then rest.encode b else (name, schema.encode a) :: rest.encode b
end

mutual
/-- Equality of messages, with equality of numbers as `Number.same` has it. -/
def Schema.same {α : Type} : Schema α → α → α → Bool
  | .text, s, t => s == t
  | .flag, a, b => a == b
  | .any, v, w => v.same w
  | .dict, o, p => o.same p
  | .choice v, a, b => v.word a == v.word b
  | .list item, as, bs => as.length == bs.length && (as.zip bs).all fun (a, b) => item.same a b
  | .record _ fields, a, b => fields.same a b
  | .shared _ fields rest, (a, b), (c, d) => fields.same a c && rest.same b d
  | .either _ first _, .inl a, .inl b => first.same a b
  | .either _ _ second, .inr a, .inr b => second.same a b
  | .either _ _ _, _, _ => false
  | .via write _ schema, a, b => schema.same (write a) (write b)

def Fields.same {α : Type} : Fields α → α → α → Bool
  | .done, _, _ => true
  | .required _ schema rest, (a, b), (c, d) => schema.same a c && rest.same b d
  | .optional _ _ rest, (none, b), (none, d) => rest.same b d
  | .optional _ schema rest, (some a, b), (some c, d) => schema.same a c && rest.same b d
  | .optional _ _ _, _, _ => false
  | .defaulted _ schema _ rest, (a, b), (c, d) => schema.same a c && rest.same b d
end

end ServiceBroker.Wire
