import Orchestration.Scenario.Describe

namespace Orchestration

/-- An end point, written out as far as the scenario knows it: an argument that nothing is bound to
is its placeholder. -/
structure ResolvedEndpoint where
  address : Json
  port : Option Json

/-- A job launch that was found, named from the scenario that was asked. -/
structure ExtractedJob where
  reference : Reference
  job : String
  entity : String
  endpoint : Option ResolvedEndpoint

/-- A value as it is shown to people: a text without its quotes. -/
def Json.shown : Json → String
  | .string text => text
  | value => value.compact

/-- A heading, the entity, and the end point as far as there is one. -/
def ExtractedJob.legend (j : ExtractedJob) (heading : String) : String :=
  let place := match j.endpoint with
    | none => ""
    | some endpoint =>
      " " ++ endpoint.address.shown ++
        (match endpoint.port with
          | none => ""
          | some port => " " ++ port.shown)
  heading ++ " - " ++ j.entity ++ place

/-- An end point written out by way of its values. -/
def Endpoint.resolve (e : Endpoint) (value : ParameterValue → Except Failure Json) :
    Except Failure ResolvedEndpoint := do
  let address ← value e.address
  match e.port with
  | none => return ⟨address, none⟩
  | some port => do
    let port ← value port
    return ⟨address, some port⟩

/-- A job launch that matches a question, with the outcome of writing out its end point. -/
structure JobMatch where
  reference : Reference
  launch : JobLaunch
  endpoint : Option (Except Failure ResolvedEndpoint)

/-- What is reported of a match. An end point that cannot be written out is left out. -/
def JobMatch.extracted (m : JobMatch) : ExtractedJob :=
  ⟨m.reference, m.launch.job, m.launch.entity, m.endpoint.bind Except.toOption⟩

namespace Scenario

/-- What becomes of an argument of an embedded scenario: the value bound to it, in the terms of this
scenario; or else its default; or else its placeholder. -/
def boundArgument (s inner : Scenario) (bindings : Entries String ParameterValue)
    (ref : ArgumentRef) : Except Failure Json :=
  match Entries.find? ref.name bindings with
  | some value => s.resolveValue value
  | none => return ((inner.parameters.argument? ref.name).bind Argument.default).getD ref.unbound

/-- A value of an embedded scenario, written out with what this scenario binds. -/
def resolveThrough (s inner : Scenario) (bindings : Entries String ParameterValue)
    (value : ParameterValue) : Except Failure Json :=
  value.resolveWith inner (s.boundArgument inner bindings)

/-- The match of a function that launches a job, if it satisfies the predicate. -/
def matchOf (predicate : JobLaunch → Bool) (value : ParameterValue → Except Failure Json)
    (reference : Reference) (f : ScenarioFunction) : List JobMatch :=
  match f.job? with
  | some launch =>
    if predicate launch then [⟨reference, launch, launch.endpoint.map fun e => e.resolve value⟩]
    else []
  | none => []

/-- The matches of a function and of the scenario that it starts. -/
def matchesOf (s : Scenario) (predicate : JobLaunch → Bool) (f : ScenarioFunction) :
    List JobMatch :=
  matchOf predicate s.resolveValue (.own s.scope f.id) f ++
    match f.started? with
    | some (inner, bindings) =>
      inner.functions.flatMap fun g =>
        matchOf predicate (s.resolveThrough inner bindings) (.nested s.scope f.id g.id) g
    | none => []

def jobMatches (s : Scenario) (predicate : JobLaunch → Bool) : List JobMatch :=
  s.functions.flatMap (s.matchesOf predicate)

/-- The job launches that satisfy a predicate, here and one level down, in ascending order. -/
def extractJobs (s : Scenario) (predicate : JobLaunch → Bool) : List ExtractedJob :=
  ((s.jobMatches predicate).map JobMatch.extracted).mergeSort
    fun a b => Reference.keyLE a.reference.sortKey b.reference.sortKey

def findJobs (s : Scenario) (name : String) : List ExtractedJob :=
  s.extractJobs fun launch => launch.job = name

def jobHandles (s : Scenario) (name : String) : List Handle :=
  s.functions.filterMap fun f =>
    match f.job? with
    | some launch => if launch.job = name then some ⟨s.scope, f.id, .startJob⟩ else none
    | none => none

end Scenario

end Orchestration
