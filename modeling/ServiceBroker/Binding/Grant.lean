import ServiceBroker.Wire.Message

/-!
# What a binding is for and what it grants

A binding hands credentials and the like to an application, or a route to a router. The two are not
marked apart when written: a body with a route is a route grant, any other one an application grant.
-/
namespace ServiceBroker
open Wire

/-- The application or route that a binding is for. -/
structure BindResource where
  appGuid : Option String
  route : Option String
  properties : Object
  deriving Inhabited

def BindResource.schema : Schema BindResource :=
  .via (fun x => ((x.appGuid, x.route, ()), x.properties))
    (fun ((appGuid, route, ()), properties) => ⟨appGuid, route, properties⟩)
    (.shared "BindResource"
      (.optional "app_guid" .text <|
       .optional "route" .text .done)
      .dict)

instance : Message BindResource := ⟨BindResource.schema⟩

structure VolumeMount where
  driver : String
  containerDir : String
  mode : String
  deviceType : String
  device : Value
  deriving Inhabited

def VolumeMount.schema : Schema VolumeMount :=
  .via (fun x => (x.driver, x.containerDir, x.mode, x.deviceType, x.device, ()))
    (fun (driver, containerDir, mode, deviceType, device, ()) =>
      ⟨driver, containerDir, mode, deviceType, device⟩)
    (.record "VolumeMount"
      (.required "driver" .text <|
       .required "container_dir" .text <|
       .required "mode" .text <|
       .required "device_type" .text <|
       .required "device" .any .done))

instance : Message VolumeMount := ⟨VolumeMount.schema⟩

structure Endpoint where
  host : String
  ports : List String
  protocol : Option String
  deriving Inhabited, DecidableEq

def Endpoint.schema : Schema Endpoint :=
  .via (fun x => (x.host, x.ports, x.protocol, ()))
    (fun (host, ports, protocol, ()) => ⟨host, ports, protocol⟩)
    (.record "Endpoint"
      (.required "host" .text <|
       .required "ports" (.list .text) <|
       .optional "protocol" .text .done))

instance : Message Endpoint := ⟨Endpoint.schema⟩

/-- What an application gets. -/
structure AppGrant where
  credentials : Object
  syslogDrainUrl : Option String
  volumeMounts : List VolumeMount
  endpoints : List Endpoint
  deriving Inhabited

def AppGrant.schema : Schema AppGrant :=
  .via (fun x => (x.credentials, x.syslogDrainUrl, x.volumeMounts, x.endpoints, ()))
    (fun (credentials, syslogDrainUrl, volumeMounts, endpoints, ()) =>
      ⟨credentials, syslogDrainUrl, volumeMounts, endpoints⟩)
    (.record "AppBinding"
      (.freeForm "credentials" <|
       .optional "syslog_drain_url" .text <|
       .items "volume_mounts" VolumeMount.schema <|
       .items "endpoints" Endpoint.schema .done))

instance : Message AppGrant := ⟨AppGrant.schema⟩

/-- What a router gets. -/
structure RouteGrant where
  serviceUrl : String
  deriving Inhabited, DecidableEq

def RouteGrant.schema : Schema RouteGrant :=
  .via (fun x => (x.serviceUrl, ())) (fun (serviceUrl, ()) => ⟨serviceUrl⟩)
    (.record "RouteBinding" (.required "route_service_url" .text .done))

instance : Message RouteGrant := ⟨RouteGrant.schema⟩

inductive Grant where
  | app (grant : AppGrant)
  | route (grant : RouteGrant)

namespace Grant

instance : Inhabited Grant := ⟨.app default⟩

def credentials? : Grant → Option Object
  | .app grant => some grant.credentials
  | .route _ => none

def routeServiceUrl? : Grant → Option String
  | .app _ => none
  | .route grant => some grant.serviceUrl

def toSum : Grant → RouteGrant ⊕ AppGrant
  | .route grant => .inl grant
  | .app grant => .inr grant

def ofSum : RouteGrant ⊕ AppGrant → Grant
  | .inl grant => .route grant
  | .inr grant => .app grant

/-- The route is tried first, since every member of an application grant may be missing. -/
def schema : Schema Grant :=
  .via toSum ofSum (.either "BindingKind" RouteGrant.schema AppGrant.schema)

instance : Message Grant := ⟨schema⟩

end Grant
end ServiceBroker
