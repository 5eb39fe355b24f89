import ServiceBroker.Wire.Message

/-!
# The platform behind a request

A `Context` names a platform and carries whatever properties that platform sends along. The platform
metadata of a request share the object of the request.
-/
namespace ServiceBroker
open Wire

structure Context where
  platform : String
  properties : Object
  deriving Inhabited

namespace Context

def ofPlatform (platform : String) : Context := ⟨platform, .empty⟩

def withProperty (c : Context) (name : String) (v : Value) : Context :=
  { c with properties := c.properties.insert name v }

def property? (c : Context) (name : String) : Option Value := c.properties.get? name

def schema : Schema Context :=
  .via (fun x => ((x.platform, ()), x.properties)) (fun ((platform, ()), properties) =>
      ⟨platform, properties⟩)
    (.shared "Context" (.required "platform" .text .done) .dict)

instance : Message Context := ⟨schema⟩

end Context

structure PlatformMetadata where
  instanceId : Option String
  apiInfoLocation : Option String
  originatingIdentity : Option Context
  requestIdentity : Option String
  deriving Inhabited

namespace PlatformMetadata

def schema : Schema PlatformMetadata :=
  .via (fun x => (x.instanceId, x.apiInfoLocation, x.originatingIdentity, x.requestIdentity, ()))
    (fun (instanceId, apiInfoLocation, originatingIdentity, requestIdentity, ()) =>
      ⟨instanceId, apiInfoLocation, originatingIdentity, requestIdentity⟩)
    (.record "PlatformMetadata"
      (.optional "platform_instance_id" .text <|
       .optional "api_info_location" .text <|
       .optional "originating_identity" Context.schema <|
       .optional "request_identity" .text .done))

instance : Message PlatformMetadata := ⟨schema⟩

end PlatformMetadata
end ServiceBroker
