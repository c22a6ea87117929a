import Orchestration.Parameter.Value

namespace Orchestration

/-- Where the output of a job can be reached. -/
structure Endpoint where
  address : ParameterValue
  port : Option ParameterValue := none

/-- The launch of a job on an entity. The offset is a hint for the job and makes nothing wait. -/
structure JobLaunch where
  job : String
  entity : String
  offset : Duration := .zero
  arguments : Entries String ParameterValue := []
  endpoint : Option Endpoint := none

namespace Endpoint

def values (e : Endpoint) : List ParameterValue := e.address :: e.port.toList

def rescope (source target : Scope) (e : Endpoint) : Endpoint :=
  ⟨e.address.rescope source target, e.port.map (ParameterValue.rescope source target)⟩

end Endpoint

namespace JobLaunch

def withArgument (j : JobLaunch) (key : String) (value : ParameterValue) : JobLaunch :=
  { j with arguments := Entries.insert key value j.arguments }

def withEndpoint (j : JobLaunch) (address : ParameterValue)
    (port : Option ParameterValue := none) : JobLaunch :=
  { j with endpoint := some ⟨address, port⟩ }

def hasArgument (j : JobLaunch) (key : String) : Bool := Entries.has key j.arguments

def values (j : JobLaunch) : List ParameterValue :=
  j.arguments.map Prod.snd ++ (j.endpoint.map Endpoint.values).getD []

def rescope (source target : Scope) (j : JobLaunch) : JobLaunch :=
  { j with
    arguments := ParameterValue.rescopeEntries source target j.arguments
    endpoint := j.endpoint.map (Endpoint.rescope source target) }

end JobLaunch

end Orchestration
