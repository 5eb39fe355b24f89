import ServiceBroker.Proofs.Messages
import ServiceBroker.Proofs.Wire.Values

/-!
# Texts and values are written alike

The text of a message is a stream of members, and its value is put together in sorted maps. Both say
the same, whatever strings and free-form parts the message holds, and whichever names collide.
-/
namespace ServiceBroker
open Wire Json

/-- The tree of a message is its value, put together from the values of its parts. -/
theorem Message.toJson_eq_value {α : Type} [Message α] (a : α) :
    toJson a = ((schema : Schema α).value a).json := by
  rw [Schema.value_eq]
  rfl

namespace MessageType

/-- The free-form members that stand beside the fields of a message. -/
def properties : (t : MessageType) → t.Carrier → Object
  | context, c => c.properties
  | bindResource, b => b.properties
  | _, _ => .empty

/-- A property is written in place of a field of its name. -/
theorem member?_toJson (t : MessageType) {x : t.Carrier} {n : String} {v : Value}
    (h : (t.properties x).get? n = some v) : (Message.toJson x).member? n = some v.json := by
  cases t with
  | context | bindResource =>
    have hproperty : x.properties.get? n = some v := h
    refine (Schema.member?_shared_dict _ _ n).trans ?_
    rw [hproperty]
    rfl
  | _ => exact nomatch h

/-- The text of a message is one that can be parsed, and what it denotes is the value of the
message, in which every property has won over the field of its name. -/
theorem writers_agree (t : MessageType) (x : t.Carrier) (hintegral : Integral (t.schema.encode x))
    (hnesting : t.nesting x ≤ 127) :
    Value.ofJson <$> parse Room.ofText (Message.toText x) = .ok (t.schema.value x) ∧
      Message.toJson x = (t.schema.value x).json ∧
      ∀ n v, (t.properties x).get? n = some v → (Message.toJson x).member? n = some v.json := by
  refine ⟨?_, Message.toJson_eq_value x, fun n v => t.member?_toJson⟩
  have hparse : parse Room.ofText (Message.toText x) = .ok (t.schema.encode x) :=
    parse_text hintegral (Room.holds_ofText hnesting)
  rw [hparse, Schema.value_eq]
  rfl

/-- The text of a context gives the platform and then the property of that name; its value has the
property only. In a request such a context stands beside a resource with a property in place of its
route. -/
theorem writers_agree_on_collisions :
    let c : Context := (Context.ofPlatform "c\nf").withProperty "platform"
      (.ofJson (.num (.int 18446744073709551615)))
    let b : BindResource := ⟨none, some "r", Object.empty.insert "route" (.ofJson (.str "\\\"é"))⟩
    let r : BindRequest :=
      { BindRequest.ofIds "i" "b" "s" "p" with resource := some b, context := some c }
    Message.toText c = (Json.obj [("platform", .str "c\nf"),
        ("platform", .num (.int 18446744073709551615))]).text ∧
      Value.ofJson <$> parse Room.ofText (Message.toText c) =
        .ok (.ofJson (.obj [("platform", .num (.int 18446744073709551615))])) ∧
      (Message.toJson b).member? "route" = some (.str "\\\"é") ∧
      Value.ofJson <$> parse Room.ofText (Message.toText r) =
        .ok ((request .bind).schema.value r) ∧
      (Message.toJson r).member? "bind_resource" = some (Message.toJson b) := by
  intro c b r
  have hc : Integral (context.schema.encode c) := ⟨trivial, ⟨by decide, by decide⟩, trivial⟩
  have hb : Integral (bindResource.schema.encode b) := ⟨trivial, trivial, trivial⟩
  have hr : Integral ((request .bind).schema.encode r) :=
    ⟨trivial, trivial, trivial, trivial, hb, hc, trivial, trivial⟩
  obtain ⟨hcontext, -, -⟩ := writers_agree context c hc (by decide +kernel)
  obtain ⟨-, -, hproperty⟩ := writers_agree bindResource b hb (by decide +kernel)
  obtain ⟨hrequest, -, -⟩ := writers_agree (request .bind) r hr (by decide +kernel)
  exact ⟨rfl, hcontext, hproperty "route" _ rfl, hrequest,
    member?_canonical (by decide) "bind_resource"⟩

end MessageType
end ServiceBroker
