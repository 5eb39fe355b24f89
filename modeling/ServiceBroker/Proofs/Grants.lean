import ServiceBroker.Proofs.Agreement
import ServiceBroker.Proofs.Wire.Closure
import ServiceBroker.Proofs.Wire.Shapes

/-!
# What a binding grants

Every document stands for a route, for what an application gets or for neither, and is read so. An
answer that shares its object with a grant is read as its own members and the grant of the others.
-/
namespace ServiceBroker
open Wire Json

/-! ## Shapes -/

def VolumeMount.shape : Shape VolumeMount := fun j m =>
  ∃ driver containerDir mode deviceType device,
    Record ["driver", "container_dir", "mode", "device_type", "device"] j
      [driver, containerDir, mode, deviceType, device] ∧
    Given .text driver m.driver ∧ Given .text containerDir m.containerDir ∧
    Given .text mode m.mode ∧ Given .text deviceType m.deviceType ∧ Given .any device m.device

def Endpoint.shape : Shape Endpoint := fun j e =>
  ∃ host ports protocol, Record ["host", "ports", "protocol"] j [host, ports, protocol] ∧
    Given .text host e.host ∧ Given (.list .text) ports e.ports ∧
    Optional .text protocol e.protocol

def AppGrant.shape : Shape AppGrant := fun j g =>
  ∃ credentials syslogDrainUrl volumeMounts endpoints,
    Record ["credentials", "syslog_drain_url", "volume_mounts", "endpoints"] j
      [credentials, syslogDrainUrl, volumeMounts, endpoints] ∧
    Defaulted .dict .empty credentials g.credentials ∧
    Optional .text syslogDrainUrl g.syslogDrainUrl ∧
    Defaulted (.list VolumeMount.shape) [] volumeMounts g.volumeMounts ∧
    Defaulted (.list Endpoint.shape) [] endpoints g.endpoints

/-- An object with one member that is a route, whatever the others are, or an array of the route. -/
def RouteGrant.shape : Shape RouteGrant := fun j g =>
  (∃ members, j = .obj members ∧ members.filter (·.1 == "route_service_url") =
    [("route_service_url", .str g.serviceUrl)]) ∨
  j = .arr [.str g.serviceUrl]

def BindingMetadata.shape : Shape BindingMetadata := fun j m =>
  ∃ expiresAt renewBefore, Record ["expires_at", "renew_before"] j [expiresAt, renewBefore] ∧
    Optional .text expiresAt m.expiresAt ∧ Optional .text renewBefore m.renewBefore

theorem VolumeMount.has_shape : schema.Has shape := by
  intro j m
  rw [schema, Schema.read?_via_iff (fun _ => rfl), and_iff_left rfl, Schema.read?_record]
  constructor
  · rintro ⟨slots, hrecord, hfill⟩
    obtain ⟨_, slots, rfl, hlength⟩ := List.length_eq_succ_iff.1 hrecord.length_slots
    obtain ⟨_, _, _, _, rfl⟩ := List.length_eq_four.1 hlength
    simp only [Schema.has_text.required, Schema.has_any.required] at hfill
    obtain ⟨hdriver, hcontainerDir, hmode, hdeviceType, hdevice, -⟩ := hfill
    exact ⟨_, _, _, _, _, hrecord, hdriver, hcontainerDir, hmode, hdeviceType, hdevice⟩
  · rintro ⟨driver, containerDir, mode, deviceType, device, hrecord, hdriver, hcontainerDir, hmode,
      hdeviceType, hdevice⟩
    refine ⟨_, hrecord, ?_⟩
    simp only [Schema.has_text.required, Schema.has_any.required]
    exact ⟨hdriver, hcontainerDir, hmode, hdeviceType, hdevice, rfl⟩

theorem Endpoint.has_shape : schema.Has shape := by
  intro j e
  have htexts : (Schema.list .text).Has (.list .text) := Schema.has_list Schema.has_text
  rw [schema, Schema.read?_via_iff (fun _ => rfl), and_iff_left rfl, Schema.read?_record]
  constructor
  · rintro ⟨slots, hrecord, hfill⟩
    obtain ⟨_, _, _, rfl⟩ := List.length_eq_three.1 hrecord.length_slots
    simp only [Schema.has_text.required, htexts.required, Fields.fill?_optional_text] at hfill
    obtain ⟨hhost, hports, hprotocol, -⟩ := hfill
    exact ⟨_, _, _, hrecord, hhost, hports, hprotocol⟩
  · rintro ⟨host, ports, protocol, hrecord, hhost, hports, hprotocol⟩
    refine ⟨_, hrecord, ?_⟩
    simp only [Schema.has_text.required, htexts.required, Fields.fill?_optional_text]
    exact ⟨hhost, hports, hprotocol, rfl⟩

theorem BindingMetadata.has_shape : schema.Has shape := by
  intro j m
  rw [schema, Schema.read?_via_iff (fun _ => rfl), and_iff_left rfl, Schema.read?_record]
  constructor
  · rintro ⟨slots, hrecord, hfill⟩
    obtain ⟨_, _, rfl⟩ := List.length_eq_two.1 hrecord.length_slots
    simp only [Fields.fill?_optional_text] at hfill
    obtain ⟨hexpiresAt, hrenewBefore, -⟩ := hfill
    exact ⟨_, _, hrecord, hexpiresAt, hrenewBefore⟩
  · rintro ⟨expiresAt, renewBefore, hrecord, hexpiresAt, hrenewBefore⟩
    refine ⟨_, hrecord, ?_⟩
    simp only [Fields.fill?_optional_text]
    exact ⟨hexpiresAt, hrenewBefore, rfl⟩

theorem AppGrant.has_shape : schema.Has shape := by
  intro j g
  have hmounts := Schema.has_list VolumeMount.has_shape
  have hendpoints := Schema.has_list Endpoint.has_shape
  rw [schema, Schema.read?_via_iff (fun _ => rfl), and_iff_left rfl, Schema.read?_record]
  constructor
  · rintro ⟨slots, hrecord, hfill⟩
    obtain ⟨_, _, _, _, rfl⟩ := List.length_eq_four.1 hrecord.length_slots
    obtain ⟨hcredentials, hfill⟩ := Schema.has_dict.defaulted.1 hfill
    obtain ⟨hsyslog, hfill⟩ := Fields.fill?_optional_text.1 hfill
    obtain ⟨hvolumeMounts, hfill⟩ := hmounts.defaulted.1 hfill
    obtain ⟨hendpoints, -⟩ := hendpoints.defaulted.1 hfill
    exact ⟨_, _, _, _, hrecord, hcredentials, hsyslog, hvolumeMounts, hendpoints⟩
  · rintro ⟨credentials, syslogDrainUrl, volumeMounts, endpoints, hrecord, hcredentials, hsyslog,
      hvolumeMounts, hgiven⟩
    refine ⟨_, hrecord, ?_⟩
    exact Schema.has_dict.defaulted.2 ⟨hcredentials, Fields.fill?_optional_text.2 ⟨hsyslog,
      hmounts.defaulted.2 ⟨hvolumeMounts, hendpoints.defaulted.2 ⟨hgiven, rfl⟩⟩⟩⟩

/-- A member that is named once is found by its name. -/
theorem Json.filter_eq_singleton_iff {members : List (String × Json)} {n : String} {j : Json} :
    members.filter (·.1 == n) = [(n, j)] ↔
      (members.map Prod.fst).count n ≤ 1 ∧ members.lookup n = some j := by
  have hnone : ∀ members : List (String × Json),
      members.filter (·.1 == n) = [] ↔ (members.map Prod.fst).count n = 0 := by
    intro members
    rw [List.count_eq_zero, List.filter_eq_nil_iff]
    grind
  induction members with
  | nil => simp
  | cons m members ih =>
    obtain ⟨k, a⟩ := m
    rw [List.map_cons, List.count_cons, List.filter_cons, lookup_cons]
    by_cases hk : k = n
    · subst hk
      simp [hnone, and_comm]
    · simp [hk, Ne.symm hk, ih]

theorem RouteGrant.shape_iff {j : Json} {g : RouteGrant} :
    shape j g ↔ Record ["route_service_url"] j [some (.str g.serviceUrl)] := by
  refine Iff.trans (or_congr (exists_congr fun members => ?_) ?_) (record_iff ..).symm
  · rw [filter_eq_singleton_iff]
    simp [Once, eq_comm, and_comm, and_assoc]
  · constructor
    · rintro rfl
      exact ⟨[_], Nat.le_refl 1, rfl, rfl⟩
    · rintro ⟨items, hlength, rfl, hslots⟩
      cases items with
      | nil => cases hslots
      | cons item items =>
        obtain rfl : items = [] := List.length_eq_zero_iff.1 (by simpa using hlength)
        cases hslots
        rfl

theorem RouteGrant.has_shape : schema.Has shape := by
  intro j g
  rw [schema, Schema.read?_via_iff (fun _ => rfl), and_iff_left rfl, Schema.read?_record, shape_iff]
  constructor
  · rintro ⟨slots, hrecord, hfill⟩
    obtain ⟨_, rfl⟩ := List.length_eq_one_iff.1 hrecord.length_slots
    obtain ⟨⟨rfl⟩, -⟩ := Schema.has_text.required.1 hfill
    exact hrecord
  · intro hrecord
    exact ⟨_, hrecord, Schema.has_text.required.2 ⟨.given rfl, rfl⟩⟩

/-! ## Classification -/

/-- What a document stands for as a grant: a route if it has the shape of one, else what an
application gets if it has that shape, else nothing. -/
inductive Grant.Classified (j : Json) : Except DecodeError Grant → Prop
  | route {g : RouteGrant} (h : RouteGrant.shape j g) : Classified j (.ok (.route g))
  | app {g : AppGrant} (hroute : ∀ g, ¬ RouteGrant.shape j g) (h : AppGrant.shape j g) :
    Classified j (.ok (.app g))
  | neither (hroute : ∀ g, ¬ RouteGrant.shape j g) (happ : ∀ g, ¬ AppGrant.shape j g) :
    Classified j (.error (.shape (.noAlternative "BindingKind")))

/-- The results of reading a document: from a text that is parsed as it, and as a value. -/
inductive Message.ReadFrom {α : Type} [Message α] : Json → Except DecodeError α → Prop
  | text {text : String} {j : Json} (h : parse Room.ofText text = .ok j) : ReadFrom j (ofText text)
  | value (v : Value) : ReadFrom v.json (ofJson v.json)

theorem Message.ReadFrom.exists_decode {α : Type} [Message α] {j : Json}
    {result : Except DecodeError α} (h : ReadFrom j result) :
    ∃ m : Medium, m.room.Holds j.depth ∧ result = schema.decode m (Document.ofJson j) := by
  cases h with
  | text hparse =>
    obtain ⟨-, hroom⟩ := Json.ofText_of_parse hparse
    exact ⟨.text 127, hroom, Message.ofText_of_parse hparse⟩
  | value v =>
    exact ⟨.value, Room.holds_unlimited _, by rw [ofJson, canonical_eq_self v.canonical]⟩

namespace Grant

theorem Classified.unique {j : Json} {x y : Except DecodeError Grant} (hx : Classified j x)
    (hy : Classified j y) : x = y := by
  cases hx with
  | route hg =>
    cases hy with
    | route hg' => rw [RouteGrant.has_shape.unique hg hg']
    | app hroute _ | neither hroute _ => exact absurd hg (hroute _)
  | app hroute hg =>
    cases hy with
    | route hg' => exact absurd hg' (hroute _)
    | app _ hg' => rw [AppGrant.has_shape.unique hg hg']
    | neither _ happ => exact absurd hg (happ _)
  | neither hroute happ =>
    cases hy with
    | route hg => exact absurd hg (hroute _)
    | app _ hg => exact absurd hg (happ _)
    | neither _ _ => rfl

/-- What is read of a document is what the document stands for. -/
theorem classified_decode {m : Medium} {j : Json} (hroom : m.room.Holds j.depth) :
    Classified j (schema.decode m (Document.ofJson j)) := by
  rw [schema, Schema.decode, Schema.decode, Document.take_ofJson j hroom, ofReading, ok_bind]
  cases hroute : RouteGrant.schema.decode .value (Document.ofJson j) with
  | ok g => exact .route (RouteGrant.has_shape.decode_eq_ok_iff.1 hroute)
  | error e =>
    have hnoRoute : ∀ g, ¬ RouteGrant.shape j g := by
      intro g hg
      cases hroute.symm.trans (RouteGrant.has_shape.decode_eq_ok_iff.2 hg)
    cases happ : AppGrant.schema.decode .value (Document.ofJson j) with
    | ok g => exact .app hnoRoute (AppGrant.has_shape.decode_eq_ok_iff.1 happ)
    | error e' =>
      have hnoApp : ∀ g, ¬ AppGrant.shape j g := by
        intro g hg
        cases happ.symm.trans (AppGrant.has_shape.decode_eq_ok_iff.2 hg)
      exact .neither hnoRoute hnoApp

theorem decode_eq_iff {m : Medium} {j : Json} (hroom : m.room.Holds j.depth)
    {x : Except DecodeError Grant} : schema.decode m (Document.ofJson j) = x ↔ Classified j x := by
  constructor
  · rintro rfl
    exact classified_decode hroom
  · exact (classified_decode hroom).unique

theorem map_decode_eq_iff {α : Type} {f : Grant → α} {j : Json} {y : Except DecodeError α} :
    f <$> schema.decode .value (Document.ofJson j) = y ↔ ∃ x, Classified j x ∧ f <$> x = y := by
  have hroom : Medium.value.room.Holds j.depth := Room.holds_unlimited _
  constructor
  · rintro rfl
    exact ⟨_, classified_decode hroom, rfl⟩
  · rintro ⟨x, hx, rfl⟩
    rw [(decode_eq_iff hroom).2 hx]

end Grant

/-! ## Answers that hold a grant -/

theorem BindingMetadata.not_shape_null (m : BindingMetadata) : ¬ shape .null m := by
  rintro ⟨_, _, hrecord, -⟩
  cases hrecord

theorem BindResponse.decode_eq {m : Medium} {members : List (String × Json)} {isAsync : Bool}
    {operation : Option String} {metadata : Option BindingMetadata}
    (hroom : m.room.Holds (Json.obj members).depth)
    (honce : Once ["async", "operation", "metadata"] members)
    (hasync : Defaulted .flag false (members.lookup "async") isAsync)
    (hoperation : Optional .text (members.lookup "operation") operation)
    (hmetadata : Optional BindingMetadata.shape (members.lookup "metadata") metadata) :
    schema.decode m (Document.ofJson (.obj members)) =
      (fun g => ⟨isAsync, operation, .new, metadata, g⟩) <$> Grant.schema.decode .value
        (Document.ofJson (.obj (foreign ["async", "operation", "metadata"] members))) := by
  rw [schema, Schema.decode_via_shared (a := (isAsync, operation, metadata, ())) hroom]
  · rfl
  · exact honce
  · exact Schema.has_flag.defaulted.2 ⟨hasync, Fields.fill?_optional_text.2 ⟨hoperation,
      (BindingMetadata.has_shape.optional BindingMetadata.not_shape_null).2 ⟨hmetadata, rfl⟩⟩⟩

theorem FetchBindingResponse.decode_eq {m : Medium} {members : List (String × Json)}
    {parameters : Object} {metadata : Option BindingMetadata}
    (hroom : m.room.Holds (Json.obj members).depth)
    (honce : Once ["parameters", "metadata"] members)
    (hparameters : Defaulted .dict .empty (members.lookup "parameters") parameters)
    (hmetadata : Optional BindingMetadata.shape (members.lookup "metadata") metadata) :
    schema.decode m (Document.ofJson (.obj members)) =
      (fun g => ⟨parameters, metadata, g⟩) <$> Grant.schema.decode .value
        (Document.ofJson (.obj (foreign ["parameters", "metadata"] members))) := by
  rw [schema, Schema.decode_via_shared (a := (parameters, metadata, ())) hroom]
  · rfl
  · exact honce
  · exact Schema.has_dict.defaulted.2 ⟨hparameters,
      (BindingMetadata.has_shape.optional BindingMetadata.not_shape_null).2 ⟨hmetadata, rfl⟩⟩

/-- A text that is read as a grant is a document. -/
theorem Grant.exists_parse {text : String} {g : Grant} (h : Message.ofText text = .ok g) :
    ∃ j, parse Room.ofText text = .ok j := by
  obtain ⟨_, hdecode, h⟩ := bind_eq_ok.1 h
  split at h
  · next hcomplete =>
    obtain ⟨_, heither, -⟩ := map_eq_ok.1 hdecode
    obtain ⟨j, htake, -⟩ := bind_eq_ok.1 heither
    obtain ⟨hd, hroom⟩ := Document.eq_ofJson_of_take _ (ofReading_eq_ok.1 htake)
    exact ⟨j, parse_of_ofText (Prod.ext hd hcomplete) hroom⟩
  · exact nomatch h

/-- A document is read as a grant exactly as it is classified, and no other text is read as one. An
answer to a bind or to a fetch whose own members are valid, none of them named twice, is read with
the grant, or fails with the error, of the object without them. -/
theorem read_as_classified :
    (∀ (j : Json) (x : Except DecodeError Grant), Message.ReadFrom j x →
      ∀ y, x = y ↔ Grant.Classified j y) ∧
    (∀ (text : String) (g : Grant), Message.ofText text = .ok g →
      ∃ j, parse Room.ofText text = .ok j) ∧
    (∀ (members : List (String × Json)) (isAsync : Bool) (operation : Option String)
        (metadata : Option BindingMetadata),
      Once ["async", "operation", "metadata"] members →
      Defaulted .flag false (members.lookup "async") isAsync →
      Optional .text (members.lookup "operation") operation →
      Optional BindingMetadata.shape (members.lookup "metadata") metadata →
      ∀ x : Except DecodeError BindResponse, Message.ReadFrom (.obj members) x → ∀ y, x = y ↔
        ∃ g, Grant.Classified (.obj (foreign ["async", "operation", "metadata"] members)) g ∧
          (fun g => ⟨isAsync, operation, .new, metadata, g⟩) <$> g = y) ∧
    ∀ (members : List (String × Json)) (parameters : Object) (metadata : Option BindingMetadata),
      Once ["parameters", "metadata"] members →
      Defaulted .dict .empty (members.lookup "parameters") parameters →
      Optional BindingMetadata.shape (members.lookup "metadata") metadata →
      ∀ x : Except DecodeError FetchBindingResponse, Message.ReadFrom (.obj members) x → ∀ y,
        x = y ↔ ∃ g, Grant.Classified (.obj (foreign ["parameters", "metadata"] members)) g ∧
          (fun g => ⟨parameters, metadata, g⟩) <$> g = y := by
  refine ⟨?_, fun _ _ => Grant.exists_parse, ?_, ?_⟩
  · intro j x hread y
    obtain ⟨m, hroom, rfl⟩ := hread.exists_decode
    exact Grant.decode_eq_iff hroom
  · intro members isAsync operation metadata honce hasync hoperation hmetadata x hread y
    obtain ⟨m, hroom, rfl⟩ := hread.exists_decode
    rw [← Grant.map_decode_eq_iff, ← BindResponse.decode_eq hroom honce hasync hoperation hmetadata]
    rfl
  · intro members parameters metadata honce hparameters hmetadata x hread y
    obtain ⟨m, hroom, rfl⟩ := hread.exists_decode
    rw [← Grant.map_decode_eq_iff,
      ← FetchBindingResponse.decode_eq hroom honce hparameters hmetadata]
    rfl

/-- A text that gives its route twice grants an application nothing, although it denotes a route. -/
theorem read_as_classified_twice :
    let members : List (String × Json) := [("async", .bool true),
      ("route_service_url", .str "https://a"), ("route_service_url", .str "https://b")]
    let denoted : List (String × Json) :=
      [("async", .bool true), ("route_service_url", .str "https://b")]
    Message.ofText (Json.obj members).text =
        .ok (⟨true, none, .new, none, .app default⟩ : BindResponse) ∧
      (Value.ofJson (.obj members)).json = .obj denoted ∧
      Message.ofJson (.obj denoted) =
        .ok (⟨true, none, .new, none, .route ⟨"https://b"⟩⟩ : BindResponse) := by
  intro members denoted
  obtain ⟨-, -, hbind, -⟩ := read_as_classified
  have hparse : parse Room.ofText (Json.obj members).text = .ok (.obj members) :=
    parse_text ⟨trivial, trivial, trivial, trivial⟩ (Room.holds_ofText (by decide))
  have happ : AppGrant.shape (.obj (foreign ["async", "operation", "metadata"] members)) default :=
    ⟨none, none, none, none, .object _ (by decide), .missing, .missing, .missing, .missing⟩
  have hnoRoute : ∀ g, ¬ RouteGrant.shape
      (.obj (foreign ["async", "operation", "metadata"] members)) g := by
    rintro g (⟨_, ⟨⟩, hfilter⟩ | h)
    · have hlength : 2 = 1 := congrArg List.length hfilter
      exact absurd hlength (by decide)
    · exact nomatch h
  have hroute : RouteGrant.shape (.obj (foreign ["async", "operation", "metadata"] denoted))
      ⟨"https://b"⟩ := .inl ⟨_, rfl, rfl⟩
  refine ⟨?_, rfl, ?_⟩
  · exact (hbind members true none none (by decide) (.given rfl) .missing .missing _ (.text hparse)
      _).2 ⟨_, .app hnoRoute happ, rfl⟩
  · exact (hbind denoted true none none (by decide) (.given rfl) .missing .missing _
      (.value (.ofJson (.obj denoted))) _).2 ⟨_, .route hroute, rfl⟩

end ServiceBroker
