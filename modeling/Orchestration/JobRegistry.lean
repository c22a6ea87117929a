import Orchestration.Job

namespace Orchestration

/-- The argument keys of a job, each list ascending. -/
structure JobDefinition where
  name : String
  required : List String
  optional : List String
  deriving DecidableEq

namespace JobDefinition

/-- The definition of a job by lists of keys in any order, with repetitions. -/
def ofKeys (name : String) (required optional : List String) : JobDefinition :=
  ⟨name, Entries.distinct required, Entries.distinct optional⟩

def accepts (d : JobDefinition) (key : String) : Bool :=
  d.required.contains key || d.optional.contains key

end JobDefinition

structure JobRegistry where
  jobs : Entries String JobDefinition := []
  strict : Bool := false
  deriving DecidableEq

namespace JobRegistry

/-- A registry that lets every job pass with any arguments. -/
def permissive : JobRegistry := {}

/-- Adds a definition, in place of an earlier one of the same name. -/
def register (r : JobRegistry) (d : JobDefinition) : JobRegistry :=
  { r with jobs := Entries.insert d.name d r.jobs }

def ofDefinitions (strict : Bool) (definitions : List JobDefinition) : JobRegistry :=
  definitions.foldl register { strict := strict }

def get? (r : JobRegistry) (name : String) : Option JobDefinition := Entries.find? name r.jobs

def size (r : JobRegistry) : Nat := r.jobs.length

/-- Checks the argument keys of a launch: first that none is missing, then that each is known, the
smallest offending key being the one reported. -/
def check (r : JobRegistry) (j : JobLaunch) : Except Failure Unit :=
  match r.get? j.job with
  | none => if r.strict then throw (.unknownJob j.job) else return ()
  | some definition =>
    match definition.required.find? fun key => !j.hasArgument key with
    | some key => throw (.invalidArguments j.job (.missing key))
    | none =>
      match (Entries.keys j.arguments).find? fun key => !definition.accepts key with
      | some key => throw (.invalidArguments j.job (.unexpected key))
      | none => return ()

/-- The jobs that the launches of this library use. -/
def builtinDefinitions : List JobDefinition := [
  .ofKeys "fping" ["destination_ip"] ["count", "interval", "mean", "duration"],
  .ofKeys "hping" ["destination_ip"] ["count", "interval", "mean", "destport", "duration"],
  .ofKeys "iperf3" [] ["port", "num_flows", "metrics_interval", "server", "client"],
  .ofKeys "tcp_conf_linux" []
    ["CUBIC", "other", "tcp_slow_start_after_idle", "tcp_no_metrics_save", "tcp_sack",
      "tcp_recovery", "tcp_fastopen"],
  .ofKeys "voip_qoe_dest" ["starting_port"] [],
  .ofKeys "voip_qoe_src" ["src_addr", "dest_addr", "codec", "duration"] ["starting_port"],
  .ofKeys "web_browsing_qoe" ["duration"] ["nb_runs", "nb_parallel_runs", "url"],
  .ofKeys "apache2" [] [],
  .ofKeys "dash player&server" [] [],
  .ofKeys "dash client" ["dst_ip", "protocol", "duration"] ["tornado_port"],
  .ofKeys "time_series" ["jobs", "statistics"]
    ["label", "title", "legend", "filename", "no_suffix"],
  .ofKeys "histogram" ["jobs", "bins", "statistics"]
    ["label", "title", "legend", "cumulative", "filename", "no_suffix"]]

def builtin (strict : Bool) : JobRegistry := ofDefinitions strict builtinDefinitions

end JobRegistry

end Orchestration
