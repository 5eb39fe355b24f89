import ServiceBroker.Proofs.Collisions
import ServiceBroker.Proofs.Wire.Passing

/-!
# Platform data are passed on

What a platform sends along in a context or a bind resource is written again as it was read, by
itself and wherever it stands in a request. Only a member of a resource that is null is left out.
-/
namespace ServiceBroker
open Wire Json

theorem Json.Document.member?_ofJson (n : String) (j : Json) :
    (Document.ofJson j).member? n = (j.member? n).map Document.ofJson := by
  cases j with
  | obj members => exact memberNamed?_ofMembers n members
  | _ => rfl

theorem Value.once_of_obj {v : Value} {members : List (String × Json)}
    (h : v.json = .obj members) (names : List String) : Once names members :=
  .of_nodup (sorted_of_obj h).nodup names

/-! ## Free-form records by themselves -/

/-- Fields that share an object with a free-form map leave it the members that are not theirs. -/
theorem Wire.Schema.read?_shared_dict {α : Type} {name : String} {fields : Fields α} {j : Json}
    {a : α} {o : Object} :
    (Schema.shared name fields .dict).read? j = some (a, o) ↔
      ∃ members, j = .obj members ∧ Once fields.names members ∧
        fields.fill? (fields.slots members) = some a ∧
        o = Object.ofMembers (foreign fields.names members) := by
  cases j with
  | obj members =>
    simp only [Schema.read?, Json.obj.injEq, exists_eq_left']
    by_cases honce : Once fields.names members
    · cases fields.fill? (fields.slots members) <;> simp [honce, eq_comm]
    · simp [honce]
  | _ => simp [Schema.read?]

/-- What is read as a text that may be missing or null is written as it stood, but for null. -/
theorem Wire.map_str_of_slot {slot : Option Json} {o : Option String}
    (h : slot.elim (some none) (nullable? Schema.text.read?) = some o) :
    o.map Json.str = slot.filter fun j => !j.isNull := by
  obtain _ | j := slot
  · cases h
    rfl
  · cases j <;> cases h <;> rfl

namespace Context

theorem read?_eq_some_iff {j : Json} {c : Context} :
    schema.read? j = some c ↔ ∃ members, j = .obj members ∧ Once ["platform"] members ∧
      members.lookup "platform" = some (.str c.platform) ∧
      c.properties = Object.ofMembers (foreign ["platform"] members) := by
  have htext : ∀ (slot : Option Json) (s : String),
      slot.elim none Schema.text.read? = some s ↔ slot = some (.str s) := by
    intro slot s
    obtain _ | (_ | _ | _ | _ | _ | _) := slot <;> simp [Schema.read?]
  have hfill : ∀ members : List (String × Json),
      (Fields.required "platform" .text .done).fill? [members.lookup "platform"] =
        some (c.platform, ()) ↔ members.lookup "platform" = some (.str c.platform) :=
    fun _ => Fields.fill?_required.trans ((and_iff_left rfl).trans (htext ..))
  rw [schema, Schema.read?_via_iff (fun _ => rfl), and_iff_left rfl, Schema.read?_shared_dict]
  refine exists_congr fun members => and_congr_right' (and_congr_right' ?_)
  exact and_congr_left' (hfill members)

/-- A context is written as the object that it was read from. -/
theorem canonical_encode {members : List (String × Json)} {c : Context}
    (h : schema.read? (.obj members) = some c) :
    (schema.encode c).canonical = (Json.obj members).canonical := by
  obtain ⟨_, ⟨⟩, honce, hplatform, hproperties⟩ := read?_eq_some_iff.1 h
  have hlookup : ∀ n ∈ ["platform"], [("platform", Json.str c.platform)].lookup n =
      (members.lookup n).filter fun j => !([].contains n && j.isNull) := by
    intro n hn
    obtain rfl := List.mem_singleton.1 hn
    rw [hplatform]
    rfl
  have hrejoined := canonical_rejoined (by simp) (by simp) (List.nil_subset _) honce hlookup
  rw [← hproperties, withoutNulls_nil] at hrejoined
  exact hrejoined

theorem exists_ofJson_iff (v : Value) :
    (∃ c : Context, Message.ofJson v.json = .ok c) ↔
      ∃ s, v.json.member? "platform" = some (.str s) := by
  constructor
  · rintro ⟨c, h⟩
    obtain ⟨members, hv, -, hplatform, -⟩ := read?_eq_some_iff.1 (Message.ofJson_eq_ok_iff.1 h)
    exact ⟨c.platform, by rwa [hv]⟩
  · rintro ⟨s, hplatform⟩
    cases hv : v.json with
    | obj members =>
      rw [hv] at hplatform
      let c : Context := ⟨s, Object.ofMembers (foreign ["platform"] members)⟩
      have hread : schema.read? v.json = some c :=
        read?_eq_some_iff.2 ⟨members, hv, Value.once_of_obj hv _, hplatform, rfl⟩
      exact ⟨c, by rw [← hv]; exact Message.ofJson_eq_ok_iff.2 hread⟩
    | _ =>
      rw [hv] at hplatform
      exact nomatch hplatform

theorem members_of_ofJson {v : Value} {c : Context} (h : Message.ofJson v.json = .ok c) :
    v.json.member? "platform" = some (.str c.platform) ∧
      (∀ n, n ≠ "platform" → (c.property? n).map Value.json = v.json.member? n) ∧
      Message.toJson c = v.json := by
  have hread : schema.read? v.json = some c := Message.ofJson_eq_ok_iff.1 h
  obtain ⟨members, hv, -, hplatform, hproperties⟩ := read?_eq_some_iff.1 hread
  refine ⟨by rwa [hv], ?_, ?_⟩
  · intro n hn
    have hget : c.property? n = (members.lookup n).map Value.ofJson :=
      calc c.properties.get? n
        _ = ((foreign ["platform"] members).reverse.lookup n).map Value.ofJson := by
          rw [hproperties, Object.get?_ofMembers]
        _ = (members.lookup n).map Value.ofJson := by
          rw [lookup_foreign_reverse (by simpa using hn),
            lookup_reverse (List.nodup_iff_count_le_one.1 (Value.sorted_of_obj hv).nodup n)]
    rw [hget, Option.map_map, hv, member?]
    cases hj : members.lookup n with
    | none => rfl
    | some j => exact congrArg some (Value.canonical_of_member? (v := v) (n := n) (by rwa [hv]))
  · rw [hv] at hread
    exact (canonical_encode hread).trans ((Value.canonical_obj_of_obj hv).trans hv.symm)

theorem returns_schema : schema.Returns (withoutNulls []) := by
  intro m ms ending c h
  obtain ⟨j, hj, hread⟩ := Schema.exists_read?_of_decode rfl h
  obtain ⟨members, rfl, -⟩ := read?_eq_some_iff.1 hread
  exact ⟨members, hj, by rw [canonical_encode hread, withoutNulls_nil]⟩

end Context

namespace BindResource

theorem read?_eq_some_iff {j : Json} {b : BindResource} :
    schema.read? j = some b ↔ ∃ members, j = .obj members ∧ Once ["app_guid", "route"] members ∧
      (members.lookup "app_guid").elim (some none) (nullable? Schema.text.read?) =
        some b.appGuid ∧
      (members.lookup "route").elim (some none) (nullable? Schema.text.read?) = some b.route ∧
      b.properties = Object.ofMembers (foreign ["app_guid", "route"] members) := by
  rw [schema, Schema.read?_via_iff (fun _ => rfl), and_iff_left rfl, Schema.read?_shared_dict]
  constructor
  · rintro ⟨members, rfl, honce, hfill, hproperties⟩
    obtain ⟨happGuid, hfill⟩ := Fields.fill?_optional.1 hfill
    obtain ⟨hroute, -⟩ := Fields.fill?_optional.1 hfill
    exact ⟨members, rfl, honce, happGuid, hroute, hproperties⟩
  · rintro ⟨members, rfl, honce, happGuid, hroute, hproperties⟩
    refine ⟨members, rfl, honce, ?_, hproperties⟩
    exact Fields.fill?_optional.2 ⟨happGuid, Fields.fill?_optional.2 ⟨hroute, rfl⟩⟩

/-- A resource is written as the object that it was read from, but for members that are null. -/
theorem canonical_encode {members : List (String × Json)} {b : BindResource}
    (h : schema.read? (.obj members) = some b) :
    (schema.encode b).canonical =
      (Json.obj members).canonical.withoutNulls ["app_guid", "route"] := by
  obtain ⟨_, ⟨⟩, honce, happGuid, hroute, hproperties⟩ := read?_eq_some_iff.1 h
  obtain ⟨appGuid, route, properties⟩ := b
  have happGuid := map_str_of_slot happGuid
  have hroute := map_str_of_slot hroute
  let own := (appGuid.map fun s => ("app_guid", Json.str s)).toList ++
    (route.map fun s => ("route", Json.str s)).toList
  have hown : (own.map Prod.fst).Sublist ["app_guid", "route"] := by
    cases appGuid <;> cases route <;> simp [own]
  have hlookup : ∀ n ∈ ["app_guid", "route"], own.lookup n =
      (members.lookup n).filter fun j => !(["app_guid", "route"].contains n && j.isNull) := by
    simp only [List.forall_mem_cons]
    refine ⟨?_, ?_, nofun⟩
    · refine Eq.trans ?_ happGuid
      cases appGuid <;> cases route <;> rfl
    · refine Eq.trans ?_ hroute
      cases appGuid <;> cases route <;> rfl
  have hrejoined := canonical_rejoined (hown.nodup (by decide)) hown.subset (List.Subset.refl _)
    honce hlookup
  have hencode : schema.encode ⟨appGuid, route, properties⟩ =
      .obj (own ++ membersOf properties.toJson) := by
    cases appGuid <;> cases route <;> rfl
  rw [← hproperties] at hrejoined
  rwa [hencode]

theorem exists_ofJson {v : Value} (hobject : ∃ members, v.json = .obj members)
    (htexts : ∀ n ∈ ["app_guid", "route"], v.json.member? n = none ∨
      v.json.member? n = some .null ∨ ∃ s, v.json.member? n = some (.str s)) :
    ∃ b : BindResource, Message.ofJson v.json = .ok b ∧
      Message.toJson b = v.json.withoutNulls ["app_guid", "route"] := by
  obtain ⟨members, hv⟩ := hobject
  have hslot : ∀ n ∈ ["app_guid", "route"], ∃ o,
      (members.lookup n).elim (some none) (nullable? Schema.text.read?) = some o := by
    intro n hn
    have htext := htexts n hn
    rw [hv, member?] at htext
    rcases htext with h | h | ⟨s, h⟩
    · exact ⟨none, by rw [h]; rfl⟩
    · exact ⟨none, by rw [h]; rfl⟩
    · exact ⟨some s, by rw [h]; rfl⟩
  obtain ⟨appGuid, happGuid⟩ := hslot "app_guid" (by simp)
  obtain ⟨route, hroute⟩ := hslot "route" (by simp)
  let b : BindResource :=
    ⟨appGuid, route, Object.ofMembers (foreign ["app_guid", "route"] members)⟩
  have hread : schema.read? (.obj members) = some b :=
    read?_eq_some_iff.2 ⟨members, rfl, Value.once_of_obj hv _, happGuid, hroute, rfl⟩
  refine ⟨b, Message.ofJson_eq_ok_iff.2 (by rw [hv]; exact hread), ?_⟩
  rw [hv, ← Value.canonical_obj_of_obj hv]
  exact canonical_encode hread

theorem returns_schema : schema.Returns (withoutNulls ["app_guid", "route"]) := by
  intro m ms ending b h
  obtain ⟨j, hj, hread⟩ := Schema.exists_read?_of_decode rfl h
  obtain ⟨members, rfl, -⟩ := read?_eq_some_iff.1 hread
  exact ⟨members, hj, canonical_encode hread⟩

end BindResource

/-! ## Requests -/

theorem PlatformMetadata.passesOn_schema :
    schema.PassesOn "originating_identity" (withoutNulls []) :=
  ⟨fun _ => rfl, by simp [Context.returns_schema]⟩

namespace Operation

/-- Where platform data stand in a request: under which names, and which of their own members are
left out when they are null. -/
def passedOn : Operation → List (String × List String)
  | .provision | .update => [("context", []), ("originating_identity", [])]
  | .bind =>
    [("context", []), ("bind_resource", ["app_guid", "route"]), ("originating_identity", [])]
  | .deprovision | .fetchInstance | .pollInstance | .unbind | .fetchBinding | .pollBinding =>
    [("originating_identity", [])]

theorem passesOn_schema (op : Operation) : ∀ p ∈ op.passedOn,
    (Message.schema : Schema op.Request).PassesOn p.1 (withoutNulls p.2) := by
  have hcontext := Context.returns_schema
  have hresource := BindResource.returns_schema
  have hplatform := PlatformMetadata.passesOn_schema
  cases op with
  | provision | update =>
    refine List.forall_mem_cons.2 ⟨⟨fun _ => rfl, ?_⟩, List.forall_mem_singleton.2
      ⟨fun _ => rfl, ?_⟩⟩ <;> simp [Fields.names, hcontext, hplatform]
  | bind =>
    refine List.forall_mem_cons.2 ⟨⟨fun _ => rfl, ?_⟩, List.forall_mem_cons.2
      ⟨⟨fun _ => rfl, ?_⟩, List.forall_mem_singleton.2 ⟨fun _ => rfl, ?_⟩⟩⟩ <;>
      simp [Fields.names, hcontext, hresource, hplatform]
  | _ => exact List.forall_mem_singleton.2 ⟨fun _ => rfl, by simp [Fields.names, hplatform]⟩

theorem isObject_schema (op : Operation) :
    (Message.schema : Schema op.Request).isObject := by
  cases op <;> rfl

/-- An object that is read as platform data of a request is a member of the tree of the request,
under the same name. -/
theorem member?_toJson_of_decode (op : Operation) {r : op.Request} {m : Medium} {d : Document}
    (h : (Message.schema : Schema op.Request).decode m d = .ok r) {p : String × List String}
    (hp : p ∈ op.passedOn) {ms : List (MemberName × Document)} {ending : ObjectEnd}
    (hgiven : d.member? p.1 = some (.obj ms ending)) :
    ∃ o, Document.obj ms ending = Document.ofJson (.obj o) ∧
      (Message.toJson r).member? p.1 = some ((Json.obj o).canonical.withoutNulls p.2) := by
  obtain ⟨o, ho, j, hj, hkept⟩ :=
    Schema.reappears_of_decode _ (op.passesOn_schema p hp) h ms ending hgiven
  obtain ⟨hapart, -⟩ := (MessageType.request op).apart_of_decode h
  obtain ⟨members, hencode, hnodup, -⟩ := Schema.encode_object _ op.isObject_schema
    (MessageType.request op).wellFormed_schema r hapart
  rw [hencode, membersOf] at hj
  refine ⟨o, ho, ?_⟩
  rw [Message.toJson, hencode, member?_canonical hnodup, hj, Option.map_some, hkept]

end Operation

/-- A context is read from exactly the objects with a text as their platform, has every other member
as its property and is written as that object. A bind resource is written as the object it is read
from, but for an application or a route that is null. In every request that is accepted, as a tree
or as a text, an object that is given as platform data is written as that same object. -/
theorem platform_data_passed_on :
    (∀ v : Value,
      ((∃ c : Context, Message.ofJson v.json = .ok c) ↔
        ∃ s, v.json.member? "platform" = some (.str s)) ∧
      ∀ c : Context, Message.ofJson v.json = .ok c →
        v.json.member? "platform" = some (.str c.platform) ∧
        (∀ n, n ≠ "platform" → (c.property? n).map Value.json = v.json.member? n) ∧
        Message.toJson c = v.json) ∧
    (∀ v : Value, (∃ members, v.json = .obj members) →
      (∀ n ∈ ["app_guid", "route"], v.json.member? n = none ∨ v.json.member? n = some .null ∨
        ∃ s, v.json.member? n = some (.str s)) →
      ∃ b : BindResource, Message.ofJson v.json = .ok b ∧
        Message.toJson b = v.json.withoutNulls ["app_guid", "route"]) ∧
    ∀ (op : Operation) (r : op.Request), ∀ p ∈ op.passedOn,
      (∀ v : Value, Message.ofJson v.json = .ok r →
        ∀ o, v.json.member? p.1 = some (.obj o) →
          (Message.toJson r).member? p.1 = some ((Json.obj o).withoutNulls p.2)) ∧
      ∀ text, Message.ofText text = .ok r →
        ∀ ms ending, (Document.ofText text).1.member? p.1 = some (.obj ms ending) →
          ∃ o, Document.obj ms ending = Document.ofJson (.obj o) ∧
            (Message.toJson r).member? p.1 = some ((Json.obj o).canonical.withoutNulls p.2) := by
  refine ⟨?_, ?_, ?_⟩
  · exact fun v => ⟨Context.exists_ofJson_iff v, fun c => Context.members_of_ofJson⟩
  · exact fun v => BindResource.exists_ofJson
  · intro op r p hp
    constructor
    · intro v hread o ho
      have hgiven : (Document.ofJson v.json.canonical).member? p.1 =
          some (Document.ofJson (.obj o)) := by
        rw [canonical_eq_self v.canonical, Document.member?_ofJson, ho, Option.map_some]
      obtain ⟨o', ho', hmember⟩ := op.member?_toJson_of_decode hread hp hgiven
      have heq : Json.obj o = .obj o' := Document.ofJson_injective ho'
      rw [hmember, ← heq, Value.canonical_of_member? ho]
    · intro text hread ms ending hgiven
      obtain ⟨a, hdecode, h⟩ := bind_eq_ok.1 hread
      split at h
      · cases h
        exact op.member?_toJson_of_decode hdecode hp hgiven
      · exact nomatch h

/-- A bind hands on what it does not know of its context, of the caller's identity and of its
resource; the application that is null is left out. -/
theorem platform_data_passed_on_bind :
    let context : Json := .obj [("platform", .str "cf"), ("zones", .arr [.null, .obj []])]
    let identity : Json := .obj [("platform", .str "cf"), ("user_id", .str "u")]
    let resource : Json :=
      .obj [("app_guid", .null), ("route", .str "r"), ("weight", .num (.int 2))]
    let kept : Json := .obj [("route", .str "r"), ("weight", .num (.int 2))]
    let members : List (String × Json) := [("service_id", .str "s"), ("plan_id", .str "p"),
      ("context", context), ("originating_identity", identity), ("bind_resource", resource)]
    let v : Value := .ofJson (.obj members)
    (∃ c : Context, Message.ofJson context = .ok c ∧
      (c.property? "zones").map Value.json = some (.arr [.null, .obj []]) ∧
      Message.toJson c = context) ∧
    (∃ b : BindResource, Message.ofJson resource = .ok b ∧ Message.toJson b = kept) ∧
    ∃ r : BindRequest, Message.ofJson v.json = .ok r ∧
      (Message.toJson r).member? "context" = some context ∧
      (Message.toJson r).member? "originating_identity" = some identity ∧
      (Message.toJson r).member? "bind_resource" = some kept := by
  intro context identity resource kept members v
  obtain ⟨hcontext, hresource, hrequest⟩ := platform_data_passed_on
  refine ⟨?_, ?_, ?_⟩
  · obtain ⟨hread, hmembers⟩ := hcontext (.ofJson context)
    obtain ⟨c, hc⟩ := hread.2 ⟨"cf", rfl⟩
    obtain ⟨-, hproperty, htree⟩ := hmembers c hc
    exact ⟨c, hc, hproperty "zones" (by decide), htree⟩
  · have htexts : ∀ n ∈ ["app_guid", "route"], (Value.ofJson resource).json.member? n = none ∨
        (Value.ofJson resource).json.member? n = some .null ∨
          ∃ s, (Value.ofJson resource).json.member? n = some (.str s) :=
      List.forall_mem_cons.2
        ⟨.inr (.inl rfl), List.forall_mem_singleton.2 (.inr (.inr ⟨"r", rfl⟩))⟩
    exact hresource (.ofJson resource) ⟨_, rfl⟩ htexts
  · have hok : (Message.ofJson v.json : Except DecodeError BindRequest).isOk := by
      decide +kernel +revert
    cases hr : (Message.ofJson v.json : Except DecodeError BindRequest) with
    | error e =>
      rw [hr] at hok
      exact nomatch hok
    | ok r =>
      have hgiven : ∀ n, v.json.member? n = (members.lookup n).map Json.canonical :=
        member?_canonical (by decide)
      have hpassed := fun p hp => (hrequest .bind r p hp).1 v hr
      exact ⟨r, rfl, hpassed ("context", []) (by decide) _ (hgiven "context"),
        hpassed ("originating_identity", []) (by decide) _ (hgiven "originating_identity"),
        hpassed ("bind_resource", ["app_guid", "route"]) (by decide) _ (hgiven "bind_resource")⟩

end ServiceBroker
