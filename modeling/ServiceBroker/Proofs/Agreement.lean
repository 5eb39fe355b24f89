import ServiceBroker.Proofs.Messages
import ServiceBroker.Proofs.Wire.Order
import ServiceBroker.Proofs.Wire.Repeats

/-!
# Texts and values are read alike

A text is read as the value that it denotes, in whatever order its members stand, unless it repeats
a name that is read. What the text then says twice is lost in the value, but not to the reader of
the text. Only a grant, which is read as the first of two alternatives that fits, may pass over a
name that repeats.
-/
namespace ServiceBroker
open Wire Json

namespace Message

variable {α : Type} [Message α] {text : String} {j : Json}

theorem ofText_of_parse (h : parse Room.ofText text = .ok j) :
    (ofText text : Except DecodeError α) = schema.decode (.text 127) (Document.ofJson j) := by
  obtain ⟨htext, -⟩ := Json.ofText_of_parse h
  rw [ofText, htext]
  exact bind_pure _

end Message

namespace MessageType

/-- Whether a message holds a grant. -/
def holdsGrant : MessageType → Bool
  | grant | response .bind | response .fetchBinding => true
  | _ => false

theorem branches_schema (t : MessageType) : t.schema.branches = t.holdsGrant := by
  cases t with
  | request op => cases op <;> rfl
  | response op => cases op <;> rfl
  | _ => rfl

/-- A text is read as what it denotes, and only if it repeats no name that is read. With a grant in
it this holds of texts without repetition. The order of members never matters. -/
theorem readers_agree (t : MessageType) {text : String} {j : Json}
    (h : parse Room.ofText text = .ok j) :
    (t.holdsGrant = false → ∀ x : t.Carrier,
      Message.ofText text = .ok x ↔ Message.ofJson j = .ok x ∧ t.schema.Unrepeated j) ∧
    (j.Distinct → ∀ x : t.Carrier, Message.ofText text = .ok x ↔ Message.ofJson j = .ok x) ∧
    (∀ x : t.Carrier, Message.ofText text = .ok x → t.schema.Unrepeated j) ∧
    ∀ {other : String} {k : Json}, parse Room.ofText other = .ok k → j.Reordered k →
      ∀ x : t.Carrier, Message.ofText text = .ok x ↔ Message.ofText other = .ok x := by
  obtain ⟨-, hroom⟩ := Json.ofText_of_parse h
  have hroom : (Medium.text 127).room.Holds j.depth := hroom
  simp only [Message.ofText_of_parse h]
  refine ⟨?_, ?_, ?_, ?_⟩
  · intro hgrant x
    exact Schema.decode_eq_ok_iff (t.branches_schema.trans hgrant) hroom
  · intro hdistinct x
    exact Schema.decode_eq_ok_iff_of_distinct hdistinct hroom
  · intro x hread
    exact Schema.unrepeated_of_decode hroom hread
  · intro other k hk hreordered x
    obtain ⟨-, hroom'⟩ := Json.ofText_of_parse hk
    rw [Message.ofText_of_parse hk]
    exact Schema.decode_of_reordered hreordered hroom hroom'

/-- A property that is given twice has the value given last, wherever the platform stands; a
platform that is given twice is refused. A body with a route grants it, wherever the route
stands. -/
theorem readers_agree_on_repeats :
    let j : Json := .obj [("platform", .str "cf"), ("zone", .num (.int 1)), ("zone", .num (.int 2))]
    let k : Json := .obj [("zone", .num (.int 1)), ("platform", .str "cf"), ("zone", .num (.int 2))]
    let twice : Json := .obj [("platform", .str "cf"), ("platform", .str "k8s")]
    let c : Context := (Context.ofPlatform "cf").withProperty "zone" (.ofJson (.num (.int 2)))
    let route : String × Json := ("route_service_url", .str "https://route")
    let credentials : String × Json := ("credentials", .obj [])
    let grant : Grant := .route ⟨"https://route"⟩
    Message.ofText j.text = .ok c ∧ Message.ofText k.text = .ok c ∧
      (∃ d : Context, Message.ofJson twice = .ok d) ∧
      (∀ d : Context, Message.ofText twice.text ≠ .ok d) ∧
      Message.ofText (Json.obj [route, credentials]).text = .ok grant ∧
      Message.ofText (Json.obj [credentials, route]).text = .ok grant := by
  intro j k twice c route credentials grant
  have hone : Fits 1 := ⟨by decide, by decide⟩
  have htwo : Fits 2 := ⟨by decide, by decide⟩
  have hj : parse Room.ofText j.text = .ok j :=
    parse_text ⟨trivial, hone, htwo, trivial⟩ (Room.holds_ofText (by decide))
  have hk : parse Room.ofText k.text = .ok k :=
    parse_text ⟨hone, trivial, htwo, trivial⟩ (Room.holds_ofText (by decide))
  have htwice : parse Room.ofText twice.text = .ok twice :=
    parse_text ⟨trivial, trivial, trivial⟩ (Room.holds_ofText (by decide))
  have hroute : parse Room.ofText (Json.obj [route, credentials]).text =
      .ok (.obj [route, credentials]) :=
    parse_text ⟨trivial, trivial, trivial⟩ (Room.holds_ofText (by decide))
  have hlast : parse Room.ofText (Json.obj [credentials, route]).text =
      .ok (.obj [credentials, route]) :=
    parse_text ⟨trivial, trivial, trivial⟩ (Room.holds_ofText (by decide))
  obtain ⟨hread, -, -, horder⟩ := readers_agree .context hj
  have hfirst : Message.ofText j.text = .ok c :=
    (hread rfl c).2 ⟨rfl, by decide, ⟨fun _ _ => trivial, trivial⟩, trivial⟩
  have hreordered : j.Reordered k := .rel _ _ (.here [] _ (by decide))
  obtain ⟨-, hdistinct, -, hanywhere⟩ := readers_agree .grant hroute
  have hgrant : Message.ofText (Json.obj [route, credentials]).text = .ok grant :=
    (hdistinct ⟨by decide, trivial, ⟨by decide, trivial⟩, trivial⟩ _).2 rfl
  refine ⟨hfirst, (horder hk hreordered c).1 hfirst, ⟨_, rfl⟩, fun d hd => ?_, hgrant, ?_⟩
  · obtain ⟨honce, -⟩ := (((readers_agree .context htwice).1 rfl d).1 hd).2
    exact absurd (honce "platform" (by decide)) (by decide)
  · exact (hanywhere hlast (reordered_of_perm (by decide) (.swap ..)) _).1 hgrant

/-- With the route given twice, the body grants no route when it is read as it is written. -/
example :
    let twice : Json := .obj [("route_service_url", .str "a"), ("route_service_url", .str "b")]
    Message.ofJson twice = .ok (Grant.route ⟨"b"⟩) ∧
      Grant.schema.decode (.text 127) (Document.ofJson twice) = .ok default :=
  ⟨rfl, rfl⟩

end MessageType
end ServiceBroker
