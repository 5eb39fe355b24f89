import ServiceBroker.Proofs.Messages
import ServiceBroker.Proofs.Wire.Closure

/-!
# Properties that collide with fields

The properties of a context or of a bind resource share an object with its fields. Where a property
is named like a field, the message is not read back as it was written; but no such message is ever
read, so that everything that is read can be written and read again.
-/
namespace ServiceBroker
open Wire Json

/-! ## Schemas that are faithful -/

@[simp]
theorem MaintenanceInfo.faithful_schema : MaintenanceInfo.schema.Faithful := by simp [schema]

@[simp]
theorem PreviousValues.faithful_schema : PreviousValues.schema.Faithful := by simp [schema]

@[simp]
theorem InstanceMetadata.faithful_schema : InstanceMetadata.schema.Faithful := by simp [schema]

@[simp]
theorem BindingMetadata.faithful_schema : BindingMetadata.schema.Faithful := by simp [schema]

@[simp]
theorem Plan.faithful_schema : Plan.schema.Faithful := by simp [schema]

@[simp]
theorem ServiceDefinition.faithful_schema : ServiceDefinition.schema.Faithful := by
  simp [schema, Schema.Apart, Default.spoken]

@[simp]
theorem Context.faithful_schema : Context.schema.Faithful := by simp [schema, Schema.isDict]

@[simp]
theorem PlatformMetadata.faithful_schema : PlatformMetadata.schema.Faithful := by simp [schema]

@[simp]
theorem BindResource.faithful_schema : BindResource.schema.Faithful := by
  simp [schema, Schema.isDict]

@[simp]
theorem VolumeMount.faithful_schema : VolumeMount.schema.Faithful := by simp [schema]

@[simp]
theorem Endpoint.faithful_schema : Endpoint.schema.Faithful := by simp [schema]

@[simp]
theorem AppGrant.faithful_schema : AppGrant.schema.Faithful := by simp [schema]

@[simp]
theorem RouteGrant.faithful_schema : RouteGrant.schema.Faithful := by simp [schema]

theorem Grant.toSum_ofSum (s : RouteGrant ⊕ AppGrant) : toSum (ofSum s) = s := by cases s <;> rfl

@[simp]
theorem Grant.faithful_schema : Grant.schema.Faithful := by simp [schema, toSum_ofSum]

@[simp]
theorem AsyncKind.faithful_schema : AsyncKind.schema.Faithful := trivial

@[simp]
theorem OperationState.faithful_schema : OperationState.schema.Faithful := trivial

theorem PlatformMetadata.isSome_names? : schema.names?.isSome := rfl

theorem Grant.isSome_names? : schema.names?.isSome := rfl

/-- Whatever is read of a message is written again. -/
theorem MessageType.faithful_schema (t : MessageType) : t.schema.Faithful := by
  cases t with
  | request op =>
    cases op <;> exact ⟨fun _ => rfl, by simp, by simp, .inr PlatformMetadata.isSome_names?⟩
  | response op =>
    cases op with
    | bind | fetchBinding => exact ⟨fun _ => rfl, by simp, by simp, .inr Grant.isSome_names?⟩
    | _ => exact ⟨fun _ => rfl, by simp⟩
  | grant => exact ⟨Grant.toSum_ofSum, by simp⟩
  | context => exact Context.faithful_schema
  | bindResource => exact BindResource.faithful_schema
  | serviceDefinition => exact ServiceDefinition.faithful_schema
  | bindingStatus | asyncKind | operationState => trivial
  | _ => exact ⟨fun _ => rfl, by simp⟩

/-! ## Collisions -/

theorem Object.isSome_get?_iff (o : Object) (name : String) :
    (o.get? name).isSome ↔ name ∈ o.members.map Prod.fst := by
  constructor
  · intro h
    obtain ⟨v, hv⟩ := Option.isSome_iff_exists.1 h
    exact List.mem_map.2 ⟨(name, v), mem_of_lookup hv, rfl⟩
  · intro h
    obtain ⟨⟨n, v⟩, hmem, rfl⟩ := List.mem_map.1 h
    exact Option.isSome_iff_exists.2 ⟨v, lookup_of_mem o.sorted.nodup hmem⟩

namespace Context

/-- A property is named like the platform. -/
def Collides (c : Context) : Prop := (c.property? "platform").isSome

instance (c : Context) : Decidable c.Collides :=
  inferInstanceAs (Decidable ((c.property? "platform").isSome = true))

theorem apart_iff (c : Context) : schema.Apart c ↔ ¬ c.Collides := by
  simp only [schema, Schema.Apart, Fields.Apart, Schema.names?, Schema.encode, Fields.names,
    true_and, forall_const, Object.forall_names (p := (· ∉ ["platform"])), Collides, property?,
    Object.isSome_get?_iff]
  grind

theorem integral_encode_iff (c : Context) :
    Integral (schema.encode c) ↔ Integral c.properties.toJson := by
  simp [schema, Schema.encode, Fields.encode, membersOf, Object.toJson, Integral, IntegralMembers]

/-- The text of a context that collides gives the platform twice, which no reader accepts. -/
theorem rejected_of_collides {c : Context} (h : c.Collides)
    (hintegral : Integral c.properties.toJson) :
    ∃ e, (Message.ofText (Message.toText c) : Except DecodeError Context) = .error e := by
  rw [Message.ofText_toText_eq_decode (c.integral_encode_iff.2 hintegral)]
  cases hread : (Message.schema : Schema Context).decode (.text 127)
      (Document.ofJson (Message.schema.encode c)) with
  | error e => exact ⟨e, rfl⟩
  | ok d =>
    obtain ⟨x, hshared, -⟩ := map_eq_ok.1 hread
    -- The platform is always written, so the property is the second member of that name.
    have honce := Schema.once_of_decode hshared "platform" (by simp [Fields.names])
    have hmem : "platform" ∈ (mapMembers Value.json c.properties.members).map Prod.fst := by
      rw [names_mapMembers]
      exact (Object.isSome_get?_iff ..).1 h
    have htwice : (("platform" :: (mapMembers Value.json c.properties.members).map Prod.fst).count
        "platform") ≤ 1 := honce
    have hpos := List.count_pos_iff.2 hmem
    rw [List.count_cons_self] at htwice
    omega

end Context

namespace BindResource

/-- A property is named like the application or the route. -/
def Collides (r : BindResource) : Prop :=
  (r.properties.get? "app_guid").isSome ∨ (r.properties.get? "route").isSome

instance (r : BindResource) : Decidable r.Collides :=
  inferInstanceAs (Decidable (_ ∨ _))

theorem apart_iff (r : BindResource) : schema.Apart r ↔ ¬ r.Collides := by
  simp only [schema, Schema.Apart, Fields.Apart, Schema.names?, Schema.encode, Fields.names,
    implies_true, true_and, forall_const, Object.forall_names (p := (· ∉ ["app_guid", "route"])),
    Collides, Object.isSome_get?_iff]
  grind

theorem integral_encode_iff (r : BindResource) :
    Integral (schema.encode r) ↔ Integral r.properties.toJson := by
  obtain ⟨_ | appGuid, _ | route, properties⟩ := r <;>
    simp [schema, Schema.encode, Fields.encode, membersOf, Object.toJson, Integral, IntegralMembers]

end BindResource

/-! ## Members that are never written -/

theorem CatalogEntries.eq_none_iff (e : CatalogEntries) :
    e = ⟨none, none⟩ ↔ e.definition = none ∧ e.plan = none := by
  cases e
  simp

theorem Operation.withEntries_eq_self_iff (op : Operation) (r : op.Request) :
    op.withEntries r ⟨none, none⟩ = r ↔
      ∀ e ∈ op.entries? r, e.definition = none ∧ e.plan = none := by
  cases op <;> cases r <;> simp [withEntries, entries?, CatalogEntries.eq_none_iff, eq_comm]

namespace MessageType

/-- The members that are never written have their defaults. -/
def Unset : (t : MessageType) → t.Carrier → Prop
  | request op, r => ∀ e ∈ op.entries? r, e.definition = none ∧ e.plan = none
  | response .provision, r => (r : ProvisionResponse).existed = false
  | response .bind, r => (r : BindResponse).status = .new
  | _, _ => True

theorem erase_eq_self_iff (t : MessageType) (x : t.Carrier) : t.erase x = x ↔ t.Unset x := by
  cases t with
  | request op => exact op.withEntries_eq_self_iff x
  | response op =>
    cases op with
    | provision | bind =>
      cases x
      simp [erase, Unset, eq_comm]
    | _ => simp [erase, Unset]
  | _ => simp [erase, Unset]

end MessageType

/-! ## Contexts and bind resources in messages -/

/-- The context that platform metadata carry. -/
def PlatformMetadata.contexts (m : PlatformMetadata) : List Context := m.originatingIdentity.toList

namespace Operation

/-- The contexts in a request: its own and the one in its platform metadata. -/
def contexts : (op : Operation) → op.Request → List Context
  | .provision, r => r.context.toList ++ r.platform.contexts
  | .update, r => r.context.toList ++ r.platform.contexts
  | .bind, r => r.context.toList ++ r.platform.contexts
  | .deprovision, r => r.platform.contexts
  | .fetchInstance, r => r.platform.contexts
  | .pollInstance, r => r.platform.contexts
  | .unbind, r => r.platform.contexts
  | .fetchBinding, r => r.platform.contexts
  | .pollBinding, r => r.platform.contexts

def resources : (op : Operation) → op.Request → List BindResource
  | .bind, r => r.resource.toList
  | _, _ => []

end Operation

namespace MessageType

/-- The contexts in a message, wherever they stand. -/
def contexts : (t : MessageType) → t.Carrier → List Context
  | request op, r => op.contexts r
  | context, c => [c]
  | platformMetadata, m => m.contexts
  | _, _ => []

/-- The bind resources in a message. -/
def resources : (t : MessageType) → t.Carrier → List BindResource
  | request op, r => op.resources r
  | bindResource, r => [r]
  | _, _ => []

end MessageType

theorem PlatformMetadata.not_collides_of_apart {m : PlatformMetadata} (h : schema.Apart m) :
    ∀ c ∈ m.contexts, ¬ c.Collides := by
  obtain ⟨-, -, hidentity, -⟩ := h
  intro c hc
  exact c.apart_iff.1 (hidentity c (by simpa [contexts] using hc))

theorem Operation.not_collides {own : Option Context} {m : PlatformMetadata}
    (hown : ∀ c ∈ own, Context.schema.Apart c) (hm : PlatformMetadata.schema.Apart m) :
    ∀ c ∈ own.toList ++ m.contexts, ¬ c.Collides := by
  intro c hc
  rcases List.mem_append.1 hc with hc | hc
  · exact c.apart_iff.1 (hown c (by simpa using hc))
  · exact PlatformMetadata.not_collides_of_apart hm c hc

theorem Operation.not_collides_of_apart (op : Operation) {r : op.Request}
    (h : (Message.schema : Schema op.Request).Apart r) :
    (∀ c ∈ op.contexts r, ¬ c.Collides) ∧ ∀ b ∈ op.resources r, ¬ b.Collides := by
  cases op with
  | provision =>
    obtain ⟨⟨-, -, -, -, -, hcontext, -⟩, hplatform, -⟩ := h
    exact ⟨not_collides hcontext hplatform, nofun⟩
  | update =>
    obtain ⟨⟨-, -, -, -, hcontext, -⟩, hplatform, -⟩ := h
    exact ⟨not_collides hcontext hplatform, nofun⟩
  | bind =>
    obtain ⟨⟨-, -, -, -, -, hresource, hcontext, -⟩, hplatform, -⟩ := h
    refine ⟨not_collides hcontext hplatform, ?_⟩
    intro b hb
    exact b.apart_iff.1 (hresource b (by simpa [resources] using hb))
  | _ =>
    obtain ⟨-, hplatform, -⟩ := h
    exact ⟨PlatformMetadata.not_collides_of_apart hplatform, nofun⟩

namespace MessageType

/-- Where no free-form member of a message is named like a field beside it, no context and no bind
resource in it collides. -/
theorem not_collides_of_apart (t : MessageType) {x : t.Carrier} (h : t.schema.Apart x) :
    (∀ c ∈ t.contexts x, ¬ c.Collides) ∧ ∀ b ∈ t.resources x, ¬ b.Collides := by
  cases t with
  | request op => exact op.not_collides_of_apart h
  | context =>
    refine ⟨?_, nofun⟩
    intro c hc
    obtain rfl := List.mem_singleton.1 hc
    exact c.apart_iff.1 h
  | platformMetadata => exact ⟨PlatformMetadata.not_collides_of_apart h, nofun⟩
  | bindResource =>
    refine ⟨nofun, ?_⟩
    intro b hb
    obtain rfl := List.mem_singleton.1 hb
    exact b.apart_iff.1 h
  | _ => exact ⟨nofun, nofun⟩

/-! ## What is read back -/

variable (t : MessageType) {x : t.Carrier}

theorem apart_of_decode {m : Medium} {d : Document} (h : t.schema.decode m d = .ok x) :
    t.schema.Apart x ∧ t.Unset x :=
  ⟨t.schema.apart_of_decode t.faithful_schema h,
    (t.erase_eq_self_iff x).1 (Schema.erase_of_decode t.exact_schema t.faithful_schema h)⟩

/-- What a message of any type is read from. -/
theorem exists_decode (h : (∃ text, Message.ofText text = .ok x) ∨ ∃ j, Message.ofJson j = .ok x) :
    ∃ m d, t.schema.decode m d = .ok x := by
  rcases h with ⟨text, h⟩ | ⟨j, h⟩
  · obtain ⟨a, hdecode, h⟩ := bind_eq_ok.1 h
    split at h
    · cases h
      exact ⟨_, _, hdecode⟩
    · exact nomatch h
  · exact ⟨_, _, h⟩

/-- A message is read back from its tree exactly if no free-form member is named like a field beside
it, and what is never written has its default. -/
theorem ofJson_toJson_iff :
    Message.ofJson (Message.toJson x) = .ok x ↔ t.schema.Apart x ∧ t.Unset x := by
  constructor
  · exact t.apart_of_decode
  · rintro ⟨hapart, hunset⟩
    have hread := Message.ofJson_toJson_of_apart t.wellFormed_schema t.exact_schema hapart
    rwa [(t.erase_eq_self_iff x).2 hunset] at hread

theorem ofText_toText_iff (hintegral : Integral (t.schema.encode x))
    (hnesting : t.nesting x ≤ 127) :
    Message.ofText (Message.toText x) = .ok x ↔ t.schema.Apart x ∧ t.Unset x := by
  constructor
  · intro h
    rw [Message.ofText_toText_eq_decode hintegral] at h
    exact t.apart_of_decode h
  · rintro ⟨hapart, hunset⟩
    have hread := Message.ofText_toText_of_apart t.wellFormed_schema t.exact_schema hapart
      hintegral hnesting
    rwa [(t.erase_eq_self_iff x).2 hunset] at hread

/-- A context or a bind resource is read back, from its tree and from its text, exactly if it does
not collide; the text of a context that collides is refused. What is read of a text or a tree, of
whatever type, holds nothing that collides and nothing that is never written, and so it is read back
once it is written again. -/
theorem read_back_iff_not_collides :
    (∀ c : Context, (Message.ofJson (Message.toJson c) = .ok c ↔ ¬ c.Collides) ∧
      (Integral c.properties.toJson →
        (context.nesting c ≤ 127 →
          (Message.ofText (Message.toText c) = .ok c ↔ ¬ c.Collides)) ∧
        (c.Collides →
          ∃ e, (Message.ofText (Message.toText c) : Except DecodeError Context) = .error e))) ∧
    (∀ b : BindResource, (Message.ofJson (Message.toJson b) = .ok b ↔ ¬ b.Collides) ∧
      (Integral b.properties.toJson → bindResource.nesting b ≤ 127 →
        (Message.ofText (Message.toText b) = .ok b ↔ ¬ b.Collides))) ∧
    ∀ (t : MessageType) (x : t.Carrier),
      ((∃ text, Message.ofText text = .ok x) ∨ ∃ j, Message.ofJson j = .ok x) →
        (∀ c ∈ t.contexts x, ¬ c.Collides) ∧ (∀ b ∈ t.resources x, ¬ b.Collides) ∧ t.Unset x ∧
        Message.ofJson (Message.toJson x) = .ok x ∧
        (Integral (t.schema.encode x) → t.nesting x ≤ 127 →
          Message.ofText (Message.toText x) = .ok x) := by
  refine ⟨?_, ?_, ?_⟩
  · intro c
    have hcollides : context.schema.Apart c ∧ context.Unset c ↔ ¬ c.Collides := by
      rw [← c.apart_iff]
      exact and_iff_left trivial
    refine ⟨context.ofJson_toJson_iff.trans hcollides, ?_⟩
    intro hintegral
    refine ⟨?_, fun h => Context.rejected_of_collides h hintegral⟩
    intro hnesting
    exact (context.ofText_toText_iff (c.integral_encode_iff.2 hintegral) hnesting).trans hcollides
  · intro b
    have hcollides : bindResource.schema.Apart b ∧ bindResource.Unset b ↔ ¬ b.Collides := by
      rw [← b.apart_iff]
      exact and_iff_left trivial
    refine ⟨bindResource.ofJson_toJson_iff.trans hcollides, ?_⟩
    intro hintegral hnesting
    exact (bindResource.ofText_toText_iff (b.integral_encode_iff.2 hintegral) hnesting).trans
      hcollides
  · intro t x h
    obtain ⟨m, d, hdecode⟩ := t.exists_decode h
    obtain ⟨hapart, hunset⟩ := t.apart_of_decode hdecode
    obtain ⟨hcontexts, hresources⟩ := t.not_collides_of_apart hapart
    refine ⟨hcontexts, hresources, hunset, t.ofJson_toJson_iff.2 ⟨hapart, hunset⟩, ?_⟩
    intro hintegral hnesting
    exact (t.ofText_toText_iff hintegral hnesting).2 ⟨hapart, hunset⟩

/-- A context whose platform stands among its properties again is refused, and a resource with a
property in place of its route comes back with the route. A body cannot supply the plan of a bind;
what is read of it is read again from its text. -/
theorem read_back_iff_not_collides_bind :
    let c : Context := (Context.ofPlatform "cf").withProperty "platform" .null
    let b : BindResource := ⟨none, none, Object.empty.insert "route" (.ofJson (.str "r"))⟩
    let body : Json := .obj [("service_id", .str "s"), ("plan_id", .str "p"),
      ("plan", .obj [("id", .str "p")]),
      ("bind_resource", .obj [("zone", .num (.int 1)), ("route", .str "r")])]
    let request : BindRequest :=
      { BindRequest.ofIds "" "" "s" "p" with
        resource := some ⟨none, some "r", Object.empty.insert "zone" (.ofJson (.num (.int 1)))⟩ }
    (∃ e, (Message.ofText (Message.toText c) : Except DecodeError Context) = .error e) ∧
      Message.ofJson (Message.toJson c) ≠ .ok c ∧ Message.ofText (Message.toText b) ≠ .ok b ∧
      Message.ofJson body = .ok request ∧ request.entries.plan = none ∧
      Message.ofText (Message.toText request) = .ok request := by
  intro c b body request
  obtain ⟨hcontext, hresource, hread⟩ := read_back_iff_not_collides
  have hbody : Message.ofJson body = .ok request := rfl
  obtain ⟨hjson, htext⟩ := hcontext c
  obtain ⟨-, hrefused⟩ := htext ⟨trivial, trivial⟩
  have hcollides : c.Collides := by decide
  have hroute : b.Collides := by decide
  refine ⟨hrefused hcollides, fun h => hjson.1 h hcollides, ?_, hbody, ?_⟩
  · intro h
    exact ((hresource b).2 ⟨trivial, trivial⟩ (by decide +kernel)).1 h hroute
  · obtain ⟨-, -, hunset, -, hagain⟩ := hread (.request .bind) request (.inr ⟨body, hbody⟩)
    have hzone : Fits 1 := ⟨by decide, by decide⟩
    have hintegral : Integral ((MessageType.request .bind).schema.encode request) :=
      ⟨trivial, trivial, trivial, trivial, ⟨trivial, hzone, trivial⟩, trivial, trivial⟩
    exact ⟨(hunset _ rfl).2, hagain hintegral (by decide +kernel)⟩

end MessageType

end ServiceBroker
