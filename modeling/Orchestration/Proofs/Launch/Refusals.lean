import Orchestration.Launch.Plot
import Orchestration.Launch.Service
import Orchestration.Launch.Transfer
import Orchestration.Proofs.Building

/-!
What a refused launch leaves behind. A launch of one job leaves the scenario as it was. Of a launch
of two jobs the first one stays if only the second one is refused.
-/

namespace Orchestration

namespace Build

variable {s t : Scenario} {launch : JobLaunch} {wait : WaitClause} {journal : List Event}

theorem startJob_of_ok {handle : Handle} (h : s.startJob launch wait = .ok (handle, t)) :
    startJob launch wait ⟨s, journal⟩ =
      (.ok handle, ⟨t, journal ++ [.functionAdded t.name handle.kind handle.id]⟩) := by
  rw [Scenario.startJob] at h
  simp only [startJob, add, Bind.bind, Build.bind, call, h]
  rfl

theorem startJob_of_error {failure : Failure} (h : s.startJob launch wait = .error failure) :
    startJob launch wait ⟨s, journal⟩ = (.error failure, ⟨s, journal⟩) := by
  rw [Scenario.startJob] at h
  simp only [startJob, add, Bind.bind, Build.bind, call, h]

end Build

namespace Launch

open Scenario

/-- A launch of a well-known job, or of two that belong together. -/
inductive Shortcut where
  | fping (entity : String) (destination duration : ParameterValue)
  | hping (entity : String) (destination duration : ParameterValue)
  | iperf3Server (entity : String) (bind port : ParameterValue)
  | iperf3Send (client server : String) (serverIp : ParameterValue) (flow : Flow)
  | tcpConfiguration (entity : String) (settings : TransportSettings)
  | apache2 (entity : String)
  | dashServer (entity : String)
  | voip (source destination : String) (call : Call)
  | webBrowsing (entity : String) (runs parallelRuns duration : ParameterValue)
  | dashClient (entity : String) (serverIp protocol tornadoPort duration : ParameterValue)
  | timeSeries (plot : Plot) (entity : String) (jobs : List Reference)
  | cdf (plot : Plot) (entity : String) (jobs : List Reference) (bins : Nat)
  | pdf (plot : Plot) (entity : String) (jobs : List Reference) (bins : Nat)

namespace Shortcut

def steps (wait : WaitClause) : Shortcut → Build (List Handle)
  | .fping entity destination duration => Launch.fping entity destination duration wait
  | .hping entity destination duration => Launch.hping entity destination duration wait
  | .iperf3Server entity bind port => Launch.iperf3Server entity bind port wait
  | .iperf3Send client server serverIp flow => Launch.iperf3Send client server serverIp flow wait
  | .tcpConfiguration entity settings => Launch.tcpConfiguration entity settings wait
  | .apache2 entity => Launch.apache2 entity wait
  | .dashServer entity => Launch.dashServer entity wait
  | .voip source destination call => Launch.voip source destination call wait
  | .webBrowsing entity runs parallelRuns duration =>
    Launch.webBrowsing entity runs parallelRuns duration wait
  | .dashClient entity serverIp protocol tornadoPort duration =>
    Launch.dashClient entity serverIp protocol tornadoPort duration wait
  | .timeSeries plot entity jobs => plot.timeSeries entity jobs wait
  | .cdf plot entity jobs bins => plot.cdf entity jobs bins wait
  | .pdf plot entity jobs bins => plot.pdf entity jobs bins wait

/-- The job that is launched first. -/
def first : Shortcut → JobLaunch
  | .fping entity destination duration => roundTrip "fping" entity destination duration
  | .hping entity destination duration => roundTrip "hping" entity destination duration
  | .iperf3Server entity bind port => transferServer entity bind port
  | .iperf3Send _ server serverIp flow => transferServer server serverIp flow.port
  | .tcpConfiguration entity settings => transportConfiguration entity settings
  | .apache2 entity => { job := "apache2", entity := entity }
  | .dashServer entity => { job := "dash player&server", entity := entity }
  | .voip _ destination call => callReceiver destination call
  | .webBrowsing entity runs parallelRuns duration => webClient entity runs parallelRuns duration
  | .dashClient entity serverIp protocol tornadoPort duration =>
    videoClient entity serverIp protocol tornadoPort duration
  | .timeSeries plot entity jobs => plot.timeSeriesLaunch entity jobs
  | .cdf plot entity jobs bins => plot.histogramLaunch entity jobs bins true
  | .pdf plot entity jobs bins => plot.histogramLaunch entity jobs bins false

/-- The job that is launched some time after the first one, if there is one. -/
def second? : Shortcut → Option (JobLaunch × Duration)
  | .iperf3Send client _ serverIp flow => some (transferClient client serverIp flow, clientDelay)
  | .voip source _ call => some (callSender source call, voipSourceDelay)
  | _ => none

end Shortcut

/-- The clause of a job that is launched some time after another one. -/
def following (started : Handle) (delay : Duration) : WaitClause :=
  (({} : WaitClause).afterLaunched started.reference).withDelay delay

/-- What the launch of a job, and of a second one that follows it, comes to, and the scenario that
it leaves. -/
inductive Leaves (s : Scenario) (wait : WaitClause) (first : JobLaunch) :
    Option (JobLaunch × Duration) → Except Failure (List Handle) → Scenario → Prop
  | refused {second? : Option (JobLaunch × Duration)} {failure : Failure}
      (h : s.startJob first wait = .error failure) :
      Leaves s wait first second? (.error failure) s
  | alone {started : Handle} {t : Scenario} (h : s.startJob first wait = .ok (started, t)) :
      Leaves s wait first none (.ok [started]) t
  | both {started handle : Handle} {t u : Scenario} {second : JobLaunch} {delay : Duration}
      (h : s.startJob first wait = .ok (started, t))
      (hsecond : t.startJob second (following started delay) = .ok (handle, u)) :
      Leaves s wait first (some (second, delay)) (.ok [started, handle]) u
  | half {started : Handle} {t : Scenario} {second : JobLaunch} {delay : Duration}
      {failure : Failure} (h : s.startJob first wait = .ok (started, t))
      (hsecond : t.startJob second (following started delay) = .error failure) :
      Leaves s wait first (some (second, delay)) (.error failure) t

section Steps

variable (s : Scenario) (wait : WaitClause) (journal : List Event) (first second : JobLaunch)
  (delay : Duration)

theorem leaves_one : Leaves s wait first none (one first wait ⟨s, journal⟩).1
    (one first wait ⟨s, journal⟩).2.scenario := by
  simp only [one, Bind.bind, Build.bind]
  cases h : s.startJob first wait with
  | error failure =>
      rw [Build.startJob_of_error h]
      exact .refused h
  | ok result =>
      rw [Build.startJob_of_ok h]
      exact .alone h

/-- Two launches, the second one following the first. -/
def inTurn : Build (List Handle) := do
  let started ← Build.startJob first wait
  let handle ← Build.startJob second (following started delay)
  return [started, handle]

theorem leaves_inTurn :
    Leaves s wait first (some (second, delay)) (inTurn wait first second delay ⟨s, journal⟩).1
      (inTurn wait first second delay ⟨s, journal⟩).2.scenario := by
  simp only [inTurn, Bind.bind, Build.bind]
  cases h : s.startJob first wait with
  | error failure =>
      rw [Build.startJob_of_error h]
      exact .refused h
  | ok result =>
      obtain ⟨started, t⟩ := result
      rw [Build.startJob_of_ok h]
      cases hsecond : t.startJob second (following started delay) with
      | error failure =>
          simp only [Build.startJob_of_error hsecond]
          exact .half h hsecond
      | ok result =>
          simp only [Build.startJob_of_ok hsecond]
          exact .both h hsecond

theorem iperf3Send_eq_inTurn (client server : String) (serverIp : ParameterValue) (flow : Flow) :
    iperf3Send client server serverIp flow wait =
      inTurn wait (transferServer server serverIp flow.port) (transferClient client serverIp flow)
        clientDelay := by
  funext draft
  simp only [iperf3Send, iperf3Server, one, inTurn, Bind.bind, Build.bind]
  rcases Build.startJob (transferServer server serverIp flow.port) wait draft with
    ⟨_ | started, draft⟩ <;> rfl

theorem Shortcut.leaves_steps (shortcut : Shortcut) :
    Leaves s wait shortcut.first shortcut.second? (shortcut.steps wait ⟨s, journal⟩).1
      (shortcut.steps wait ⟨s, journal⟩).2.scenario := by
  cases shortcut with
  | iperf3Send client server serverIp flow =>
      rw [steps, iperf3Send_eq_inTurn]
      exact leaves_inTurn s wait journal _ _ _
  | voip source destination call => exact leaves_inTurn s wait journal _ _ _
  | _ => exact leaves_one s wait journal _

end Steps

section Refused

variable {s t : Scenario} {wait : WaitClause} {first second : JobLaunch} {started : Handle}

theorem startJob_eq_ok_iff : s.startJob first wait = .ok (started, t) ↔
    (∀ r ∈ wait.references, s.Resolves r) ∧ s.Admits (.startJob first) ∧
      ⟨s.scope, s.ids.next, .startJob⟩ = started ∧ s.withFunction (.startJob first) wait = t :=
  addFunction_eq_ok_iff

/-- The job that was launched first is there to be waited for, so only its own values and keys can
keep the second one from being launched. -/
theorem startJob_following_iff (hs : s.Intact) (h : s.startJob first wait = .ok (started, t))
    (delay : Duration) :
    (∃ added, t.startJob second (following started delay) = .ok added) ↔
      t.Admits (.startJob second) := by
  obtain ⟨hwait, hadmits, rfl, rfl⟩ := startJob_eq_ok_iff.mp h
  have hfirst : (s.withFunction (.startJob first) wait).Resolves (.own s.scope s.ids.next) :=
    (namesOwn_withFunction (hs.withFunction hwait hadmits)).resolves
  constructor
  · rintro ⟨⟨handle, u⟩, hadded⟩
    exact (startJob_eq_ok_iff.mp hadded).2.1
  · intro hsecond
    refine ⟨_, startJob_eq_ok_iff.mpr ⟨?_, hsecond, rfl, rfl⟩⟩
    intro r hr
    simp only [following, WaitClause.references_withDelay,
      WaitClause.mem_references_afterLaunched, WaitClause.references_nil] at hr
    obtain rfl := hr.resolve_left List.not_mem_nil
    exact hfirst

theorem withFunction_ne (payload : Payload) : s.withFunction payload wait ≠ s := by
  intro h
  have hlength := congrArg (fun u => u.functions.length) h
  simp [withFunction] at hlength

/-- A refused launch leaves the scenario as it was, or it leaves the first of two jobs behind. -/
theorem Leaves.of_error {second? : Option (JobLaunch × Duration)} {failure : Failure}
    (h : Leaves s wait first second? (.error failure) t) :
    t = s ∨ ∃ second delay started, second? = some (second, delay) ∧
      s.startJob first wait = .ok (started, t) ∧
      t.startJob second (following started delay) = .error failure := by
  cases h with
  | refused _ => exact .inl rfl
  | half h hsecond => exact .inr ⟨_, _, _, rfl, h, hsecond⟩

theorem Leaves.eq_of_half {delay : Duration} {outcome : Except Failure (List Handle)}
    {u : Scenario} {failure : Failure} (h : Leaves s wait first (some (second, delay)) outcome u)
    (hfirst : s.startJob first wait = .ok (started, t))
    (hsecond : t.startJob second (following started delay) = .error failure) :
    outcome = .error failure ∧ u = t := by
  cases h with
  | refused h => cases hfirst.symm.trans h
  | both h hadded =>
      cases hfirst.symm.trans h
      cases hsecond.symm.trans hadded
  | half h hfailed =>
      cases hfirst.symm.trans h
      cases hsecond.symm.trans hfailed
      exact ⟨rfl, rfl⟩

/-- What a refused launch can leave is the scenario as it was, or with the first of two jobs added.
It leaves the scenario as it was in every case exactly if there is no second job, or if the second
job can be launched whenever the first one can. -/
theorem Shortcut.unchanged_iff (hs : s.Reachable) (shortcut : Shortcut) (wait : WaitClause) :
    (∀ journal failure draft, shortcut.steps wait ⟨s, journal⟩ = (.error failure, draft) →
      draft.scenario = s ∨ draft.scenario = s.withFunction (.startJob shortcut.first) wait) ∧
    ((∀ journal failure draft, shortcut.steps wait ⟨s, journal⟩ = (.error failure, draft) →
        draft.scenario = s) ↔
      ∀ second delay, shortcut.second? = some (second, delay) →
        (∀ r ∈ wait.references, s.Resolves r) → s.Admits (.startJob shortcut.first) →
        (s.withFunction (.startJob shortcut.first) wait).Admits (.startJob second)) := by
  have hintact := hs.everywhere_intact.here
  have hleaves : ∀ {journal failure draft},
      shortcut.steps wait ⟨s, journal⟩ = (.error failure, draft) →
        Leaves s wait shortcut.first shortcut.second? (.error failure) draft.scenario := by
    intro journal failure draft hrun
    have hsteps := shortcut.leaves_steps s wait journal
    rwa [hrun] at hsteps
  refine ⟨?_, ?_, ?_⟩
  · intro journal failure draft hrun
    rcases (hleaves hrun).of_error with hsame | ⟨_, _, _, -, hfirst, -⟩
    · exact .inl hsame
    · exact .inr (startJob_eq_ok_iff.mp hfirst).2.2.2.symm
  · intro hunchanged second delay hsecond hwait hadmits
    have hfirst := startJob_eq_ok_iff.mpr ⟨hwait, hadmits, rfl, rfl⟩
    rw [← startJob_following_iff hintact hfirst delay]
    cases hadded : (s.withFunction (.startJob shortcut.first) wait).startJob second
        (following ⟨s.scope, s.ids.next, .startJob⟩ delay) with
    | ok added => exact ⟨added, rfl⟩
    | error failure =>
        have hsteps := shortcut.leaves_steps s wait []
        rw [hsecond] at hsteps
        obtain ⟨hrefused, hleft⟩ := hsteps.eq_of_half hfirst hadded
        have hsame := hunchanged [] failure _ (Prod.ext hrefused rfl)
        exact absurd (hleft.symm.trans hsame) (withFunction_ne _)
  · intro hadmits journal failure draft hrun
    rcases (hleaves hrun).of_error with hsame | ⟨second, delay, started, hsecond, hfirst, hrefused⟩
    · exact hsame
    · obtain ⟨hwait, hadmitted, -, heq⟩ := startJob_eq_ok_iff.mp hfirst
      have hlaunched := hadmits second delay hsecond hwait hadmitted
      rw [heq] at hlaunched
      obtain ⟨added, hadded⟩ := (startJob_following_iff hintact hfirst delay).mpr hlaunched
      cases hrefused.symm.trans hadded

section Sample

/-- A scenario in which nothing stands yet. -/
def vacant : Scenario := create (.root 0) "one" ""

/-- A transfer of a size that is an argument of another scenario. -/
def misplaced : Shortcut :=
  .iperf3Send "client" "server" (.text "10.0.0.2")
    ⟨.natural 5201, .argument ⟨.root 1, "size"⟩, .natural 0, .natural 1400⟩

theorem vacant_reachable : vacant.Reachable := .created _ _ _ _

theorem misplaced_refused :
    misplaced.steps {} ⟨vacant, []⟩ = (.error (vacant.unresolved (.argument "size")),
      (misplaced.steps {} ⟨vacant, []⟩).2) :=
  Prod.ext (by rfl) rfl

theorem misplaced_next : (misplaced.steps {} ⟨vacant, []⟩).2.scenario.ids = ⟨1⟩ := by rfl

/-- The server stays, and the client cannot be launched beside it. -/
theorem misplaced_unchanged_iff :
    vacant.Reachable ∧
      (misplaced.steps {} ⟨vacant, []⟩).2.scenario =
        vacant.withFunction (.startJob misplaced.first) {} ∧
      ∃ second delay, misplaced.second? = some (second, delay) ∧
        ¬ (vacant.withFunction (.startJob misplaced.first) {}).Admits (.startJob second) := by
  obtain ⟨hleft, hiff⟩ := misplaced.unchanged_iff vacant_reachable {}
  have hchanged : (misplaced.steps {} ⟨vacant, []⟩).2.scenario ≠ vacant := by
    intro hsame
    cases misplaced_next.symm.trans (congrArg Scenario.ids hsame)
  refine ⟨vacant_reachable, (hleft _ _ _ misplaced_refused).resolve_left hchanged, ?_⟩
  by_contra hadmits
  push Not at hadmits
  exact hchanged (hiff.mpr (fun second delay hsecond _ _ => hadmits second delay hsecond) _ _ _
    misplaced_refused)

/-- The client of the transfer is refused, and the server stays. -/
theorem misplaced_leaves_server :
    ¬ ∀ (s : Scenario) (shortcut : Shortcut) (wait : WaitClause) (journal : List Event)
      (failure : Failure) (draft : Draft), s.Reachable →
        shortcut.steps wait ⟨s, journal⟩ = (.error failure, draft) →
          draft.scenario.functions = s.functions ∧ draft.scenario.parameters = s.parameters ∧
            draft.scenario.ids = s.ids := by
  intro hunchanged
  have hids := (hunchanged _ _ _ _ _ _ vacant_reachable misplaced_refused).2.2
  cases misplaced_next.symm.trans hids

end Sample

end Refused

end Launch

end Orchestration
