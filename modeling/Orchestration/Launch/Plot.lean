import Orchestration.Launch.Measurement

namespace Orchestration.Launch

/-- One figure drawn from a statistic of several jobs. There is one legend for each job, or none at
all. -/
structure Plot where
  statistic : String
  label : String
  title : String
  legends : List String := []

namespace Plot

/-- One figure with one set of curves. -/
def figure (items : List ParameterValue) : ParameterValue := .list [.list items]

/-- Sets the arguments that every figure has. -/
def apply (plot : Plot) (jobs : List Reference) (launch : JobLaunch) : JobLaunch :=
  let launch := (((launch.withArgument "jobs" (figure (jobs.map .function))).withArgument
    "statistics" (figure [.text plot.statistic])).withArgument
    "label" (figure [.text plot.label])).withArgument "title" (figure [.text plot.title])
  if plot.legends.isEmpty then launch
  else launch.withArgument "legend" (figure (plot.legends.map .text))

def timeSeriesLaunch (plot : Plot) (entity : String) (jobs : List Reference) : JobLaunch :=
  plot.apply jobs { job := "time_series", entity := entity }

def histogramLaunch (plot : Plot) (entity : String) (jobs : List Reference) (bins : Nat)
    (cumulative : Bool) : JobLaunch :=
  ((plot.apply jobs { job := "histogram", entity := entity }).withArgument "bins"
    (.natural bins)).withArgument "cumulative" (.bool cumulative)

def timeSeries (plot : Plot) (entity : String) (jobs : List Reference) (wait : WaitClause) :
    Build (List Handle) :=
  one (plot.timeSeriesLaunch entity jobs) wait

/-- Draws a distribution function: a histogram that accumulates. -/
def cdf (plot : Plot) (entity : String) (jobs : List Reference) (bins : Nat)
    (wait : WaitClause) : Build (List Handle) :=
  one (plot.histogramLaunch entity jobs bins true) wait

/-- Draws a density: a histogram that does not accumulate. -/
def pdf (plot : Plot) (entity : String) (jobs : List Reference) (bins : Nat)
    (wait : WaitClause) : Build (List Handle) :=
  one (plot.histogramLaunch entity jobs bins false) wait

end Plot

end Orchestration.Launch
