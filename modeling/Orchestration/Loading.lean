import Orchestration.RegistryFile
import Orchestration.Traffic.File
import Orchestration.Traffic.Mix

namespace Orchestration

def Json.decodeFile {α : Type} (decoder : Json.Decoder α) (text : Except FileFault String) :
    Except Failure α :=
  match text with
  | .error fault => throw (.file fault)
  | .ok text =>
    match Json.decode? decoder text with
    | some value => return value
    | none => throw .json

def RegistryFile.load (path : String) (strict : Bool) (text : Except FileFault String) :
    Except Failure JobRegistry × List Event :=
  match Json.decodeFile decoder text with
  | .error failure => (.error failure, [])
  | .ok file =>
    let file := { file with strict := file.strict || strict }
    (.ok file.toRegistry,
      .registryLoaded path file.jobs.length ::
        List.replicate file.replacements .definitionReplaced)

def TrafficFile.load (path : String) (text : Except FileFault String) :
    Except Failure TrafficFile × List Event :=
  match text with
  | .error fault => (.error (.file fault), [])
  | .ok text =>
    let file := TrafficFile.ofText text
    (.ok file,
      .trafficFileOpened path ::
        (file.rejected.map (fun r => Event.lineIgnored r.line r.content r.failure) ++
          [.trafficFileRead file.records.length file.rejected.length]))

def TrafficMix.buildFile (scope : Scope) (registry : JobRegistry) (path : String)
    (text : Except FileFault String) (plotEntity : Option String) :
    Except Failure Scenario × List Event :=
  match TrafficFile.load path text with
  | (.error failure, journal) => (.error failure, journal)
  | (.ok file, journal) =>
    let built := TrafficMix.build scope registry file.records plotEntity
    (built.1, journal ++ (if file.records.isEmpty then [.noTraffic path] else []) ++ built.2)

end Orchestration
