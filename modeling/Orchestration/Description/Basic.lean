import Orchestration.Parameter.Table

namespace Orchestration

/-- Names a function of the same description, or one in a scenario that it embeds. -/
inductive Target where
  | own (id : Nat)
  | nested (host id : Nat)
  deriving DecidableEq

mutual

structure Description where
  name : String
  description : String
  arguments : List Argument
  constants : List Constant
  functions : List FunctionRecord

/-- The description of a function. The delay is in seconds. -/
structure FunctionRecord where
  id : Nat
  kind : FunctionKind
  payload : PayloadRecord
  waitFinished : List Target
  waitLaunched : List Target
  waitDelay : Double

/-- The description of what a function does. The offset is in seconds. -/
inductive PayloadRecord where
  | startJob (entity job : String) (offset : Double) (arguments : Entries String Json)
  | stopJobs (targets : List Target)
  | startScenario (name : String) (scenario : Description) (arguments : Entries String Json)
  | stopScenario (target : Target)

end

namespace Description

/-- A function of the description starts the other one. -/
def Starts (d inner : Description) : Prop :=
  ∃ f ∈ d.functions, ∃ name arguments, f.payload = .startScenario name inner arguments

/-- A property of the description and of every description embedded in it, at any depth. -/
inductive Everywhere (P : Description → Prop) : Description → Prop
  | intro {d : Description} (here : P d) (inside : ∀ inner, d.Starts inner → Everywhere P inner) :
      Everywhere P d

end Description

end Orchestration
