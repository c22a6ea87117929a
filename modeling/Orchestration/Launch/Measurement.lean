import Orchestration.Draft

namespace Orchestration.Launch

def one (launch : JobLaunch) (wait : WaitClause) : Build (List Handle) := do
  let handle ← Build.startJob launch wait
  return [handle]

/-- The launch of a job that measures round trip times towards a destination for some seconds. -/
def roundTrip (job entity : String) (destination duration : ParameterValue) : JobLaunch :=
  (({ job := job, entity := entity } : JobLaunch).withArgument "destination_ip" destination
    |>.withArgument "duration" duration).withEndpoint destination

/-- Measures round trip times by echo requests. -/
def fping (entity : String) (destination duration : ParameterValue) (wait : WaitClause) :
    Build (List Handle) :=
  one (roundTrip "fping" entity destination duration) wait

/-- Measures round trip times by connection requests. -/
def hping (entity : String) (destination duration : ParameterValue) (wait : WaitClause) :
    Build (List Handle) :=
  one (roundTrip "hping" entity destination duration) wait

end Orchestration.Launch
